-- Equality of values. It can be decided, through the values in lists and tables, so that what a
-- document says can be computed.
import Transcript.Toml

namespace Transcript.Toml.Value

mutual

/-- Whether two values are the same. -/
def isSame : Value → Value → Bool
  | .str a, .str b => a = b
  | .int a, .int b => a = b
  | .float a, .float b => a = b
  | .bool a, .bool b => a = b
  | .moment a, .moment b => a = b
  | .arr items, .arr others => areSame items others
  | .table entries, .table others => haveSame entries others
  | _, _ => false

def areSame : List Value → List Value → Bool
  | [], [] => true
  | v :: items, w :: others => isSame v w && areSame items others
  | _, _ => false

def haveSame : List (String × Value) → List (String × Value) → Bool
  | [], [] => true
  | (k, v) :: entries, (l, w) :: others => k = l && isSame v w && haveSame entries others
  | _, _ => false

end

mutual

theorem isSame_iff : (v w : Value) → (v.isSame w = true ↔ v = w)
  | .str _, w => by cases w <;> simp [isSame]
  | .int _, w => by cases w <;> simp [isSame]
  | .float _, w => by cases w <;> simp [isSame]
  | .bool _, w => by cases w <;> simp [isSame]
  | .moment _, w => by cases w <;> simp [isSame]
  | .arr items, w => by
    cases w with
    | arr others => simp [isSame, areSame_iff items others]
    | _ => simp [isSame]
  | .table entries, w => by
    cases w with
    | table others => simp [isSame, haveSame_iff entries others]
    | _ => simp [isSame]

theorem areSame_iff : (items others : List Value) → (areSame items others = true ↔ items = others)
  | [], others => by cases others <;> simp [areSame]
  | v :: items, others => by
    cases others with
    | nil => simp [areSame]
    | cons w others => simp [areSame, isSame_iff v w, areSame_iff items others]

theorem haveSame_iff : (entries others : List (String × Value)) →
    (haveSame entries others = true ↔ entries = others)
  | [], others => by cases others <;> simp [haveSame]
  | (k, v) :: entries, others => by
    cases others with
    | nil => simp [haveSame]
    | cons e others =>
      obtain ⟨l, w⟩ := e
      simp [haveSame, isSame_iff v w, haveSame_iff entries others]

end

instance : DecidableEq Value := fun v w => decidable_of_iff _ (isSame_iff v w)

end Transcript.Toml.Value
