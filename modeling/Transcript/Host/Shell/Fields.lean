-- What the pieces of a word become: cells in a row, with the regions in which separators
-- part them into fields.
import Transcript.Host.Shell.Pattern

namespace Transcript.Host

/-- A character of a word that was filled in, or the place of a quote in it. -/
inductive Cell where
  | bare (c : Char)
  /-- The character stands for itself. -/
  | quoted (c : Char)
  | mark
deriving DecidableEq

namespace Cell

/-- The text of cells. -/
def text (cells : List Cell) : Octets :=
  cells.filterMap fun cell =>
    match cell with
    | .bare c | .quoted c => some c
    | .mark => none

/-- The pattern that cells are: what stands for itself is put behind a backslash, unless one
stands there already. -/
def patternFrom : Bool → List Cell → Octets
  | _, [] => []
  | _, .mark :: rest => patternFrom true rest
  | _, .bare '\\' :: rest => '\\' :: patternFrom false rest
  | _, .bare c :: rest => c :: patternFrom true rest
  | isFree, .quoted c :: rest =>
    if isFree then '\\' :: c :: patternFrom true rest else c :: patternFrom true rest

def pattern (cells : List Cell) : Octets := patternFrom true cells

end Cell

/-- A region in which fields are parted, by all separators or by the ends of parameters
alone. -/
structure Region where
  start : Nat
  stop : Nat
  isStrict : Bool

/-- A word while it is filled in: the cells, the last first, their count, and the regions, the
last first. -/
structure Draft where
  cells : List Cell
  size : Nat
  regions : List Region

namespace Draft

def empty : Draft := ⟨[], 0, []⟩

def put (d : Draft) (cell : Cell) : Draft := ⟨cell :: d.cells, d.size + 1, d.regions⟩

def putAll (d : Draft) (cells : List Cell) : Draft := cells.foldl put d

def record (d : Draft) (start stop : Nat) (isStrict : Bool) : Draft :=
  { d with regions := ⟨start, stop, isStrict⟩ :: d.regions }

/-- All cells in order. -/
def all (d : Draft) : List Cell := d.cells.reverse

def text (d : Draft) : Octets := Cell.text d.all

end Draft

/-! ## Parting -/

/-- How far the cells were parted: where the next field starts, whether a blank ended the last
one, how many fields there may still be before the last, where the last is cut off, and the
fields, the last first. -/
structure Parting where
  start : Nat
  isBlank : Bool
  most : Option Nat
  cut : Option Nat
  fields : List (List Cell)

namespace Parting

/-- The character of a cell. The end of a parameter separates like a blank. -/
def separates (separators : Octets) (cell : Cell) : Bool × Bool :=
  let of (c : Char) : Bool × Bool :=
    let isSeparator := c = '\x00' || separators.contains c
    (isSeparator, isSeparator && (c = '\x00' || c = ' ' || c = '\t' || c = '\n'))
  match cell with
  | .bare c | .quoted c => of c
  | .mark => (false, false)

/-- Parts at the cell with a number, if it separates. -/
def step (cells : Array Cell) (separators : Octets) (isStrict : Bool) (p : Parting) (i : Nat) :
    Parting :=
  let (isSeparator, isBlank) := separates separators (cells[i]?.getD .mark)
  if p.most = some 0 then
    if isBlank then { p with cut := p.cut.or (some i) }
    else
      { p with cut := if isSeparator && p.isBlank then p.cut else none, isBlank := false }
  else
    let from' := if p.isBlank && isSeparator then i + 1 else i
    let start := if p.isBlank then from' else p.start
    if p.isBlank && isBlank then { p with start := start }
    else if isSeparator && !p.isBlank then
      let after := if isStrict then p.isBlank else isBlank
      if i = p.start && after then { p with start := i + 1, isBlank := false }
      else if p.most = some 1 then { p with most := some 0, cut := some i, isBlank := after }
      else
        { p with
          start := i + 1, isBlank := after, most := p.most.map (· - 1)
          fields := (cells.extract p.start i).toList :: p.fields }
    else { p with start := start, isBlank := false }

/-- Parts in the cells of a region; the one before it may have been strict. -/
def region (cells : Array Cell) (separators : Octets) (wasStrict : Bool) (p : Parting)
    (r : Region) : Parting :=
  let separators := if r.isStrict then [] else separators
  (List.range (r.stop - r.start)).foldl
    (fun p i => p.step cells separators (wasStrict || r.isStrict) (r.start + i))
    { p with isBlank := false }

def regions (cells : Array Cell) (separators : Octets) : Bool → Parting → List Region →
    Bool × Parting
  | wasStrict, p, [] => (wasStrict, p)
  | wasStrict, p, r :: rest =>
    regions cells separators r.isStrict (p.region cells separators wasStrict r) rest

end Parting

/-- The fields of a draft, at most so many. -/
def Draft.fields (d : Draft) (separators : Octets) (most : Option Nat) : List (List Cell) :=
  let cells := d.all.toArray
  let (wasStrict, p) :=
    Parting.regions cells separators false ⟨0, false, most, none, []⟩ d.regions.reverse
  let last :=
    if wasStrict then [(cells.extract p.start cells.size).toList]
    else
      let last := (cells.extract p.start (p.cut.getD cells.size)).toList
      if last.isEmpty then [] else [last]
  (last ++ p.fields).reverse

end Transcript.Host
