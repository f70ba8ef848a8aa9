-- A pause: the sum of times, each a number with a letter for its unit.
import Transcript.Host.Numeral
import Transcript.Host.Programs.Options
import Transcript.Host.Programs.Quoting

namespace Transcript.Host.Sleep

/-- The units of time, in seconds. -/
def unit? : Octets → Option Nat
  | [] => some 1
  | ['s'] => some 1
  | ['m'] => some 60
  | ['h'] => some 3600
  | ['d'] => some 86400
  | _ => none

/-- A time in microseconds, none inside for one without an end. -/
def time? (s : Octets) : Option (Option Nat) := do
  let (n, _, rest) ← Numeral.real? Numeral.double s
  let unit ← unit? rest
  match n with
  | .infinite false => return none
  | .finite negative units exponent =>
    if negative ∧ units ≠ 0 then none
    else
      let num := units * twoTo exponent.toNat * unit * 1000000
      let den := twoTo (-exponent).toNat
      return some ((num + den - 1) / den)
  | _ => none

def run (call : Call) : Task Nat := do
  let options ← call.options ⟨[], []⟩
  if options.operands.isEmpty then
    call.warn "missing operand".toList
    call.giveUp
  let bad := options.operands.filter fun s => (time? s).isNone
  for s in bad do
    call.warn ("invalid time interval ".toList ++ Quoting.plain s)
  if !bad.isEmpty then call.giveUp
  let times := options.operands.filterMap time?
  let total := if times.contains none then none
    else some (times.foldl (fun sum t => sum + t.getD 0) 0)
  Steps.ask (.pause total)
  return 0

end Transcript.Host.Sleep
