-- The keys of a document. However its tables were made, by headers, by dotted keys or in one
-- piece, no table of a document holds a key twice: every change of the tables under way
-- keeps this, and so does every line.
import Transcript.Toml.Document

namespace Transcript.Toml

/-! ## Distinct keys -/

/-- No table in the value holds a key twice. -/
inductive Value.DistinctKeys : Value → Prop where
  | str (s : String) : DistinctKeys (.str s)
  | int (n : Int) : DistinctKeys (.int n)
  | float (x : Binary64) : DistinctKeys (.float x)
  | bool (b : Bool) : DistinctKeys (.bool b)
  | moment (m : Moment) : DistinctKeys (.moment m)
  | arr {items : List Value} : (∀ v ∈ items, DistinctKeys v) → DistinctKeys (.arr items)
  | table {entries : Table} : (Keyed.names entries).Nodup → (∀ e ∈ entries, DistinctKeys e.2) →
      DistinctKeys (.table entries)

theorem Value.distinctKeys_table_iff {entries : Table} : (Value.table entries).DistinctKeys ↔
    (Keyed.names entries).Nodup ∧ ∀ e ∈ entries, e.2.DistinctKeys := by
  constructor
  · rintro ⟨⟩
    exact ⟨‹_›, ‹_›⟩
  · exact fun h => .table h.1 h.2

/-- No table in what is under way holds a key twice. -/
inductive Node.DistinctKeys : Node → Prop where
  | value {v : Value} : v.DistinctKeys → DistinctKeys (.value v)
  | table {origin : Origin} {entries : Entries} : entries.names.Nodup →
      (∀ e ∈ entries, DistinctKeys e.2) → DistinctKeys (.table origin entries)
  | tables {elements : List Entries} : (∀ entries ∈ elements, entries.names.Nodup) →
      (∀ entries ∈ elements, ∀ e ∈ entries, DistinctKeys e.2) → DistinctKeys (.tables elements)

/-- The entries of a table under way: no key stands twice, here or further in. -/
structure Entries.Distinct (entries : Entries) : Prop where
  names : entries.names.Nodup
  nodes : ∀ e ∈ entries, e.2.DistinctKeys

theorem Node.distinctKeys_table_iff {origin : Origin} {entries : Entries} :
    (Node.table origin entries).DistinctKeys ↔ entries.Distinct := by
  constructor
  · rintro ⟨⟩
    exact ⟨‹_›, ‹_›⟩
  · exact fun h => .table h.names h.nodes

theorem Node.distinctKeys_tables_iff {elements : List Entries} :
    (Node.tables elements).DistinctKeys ↔ ∀ entries ∈ elements, entries.Distinct := by
  constructor
  · rintro (_ | _ | ⟨hnames, hnodes⟩) entries hmem
    exact ⟨hnames entries hmem, hnodes entries hmem⟩
  · exact fun h => .tables (fun entries hmem => (h entries hmem).names)
      fun entries hmem => (h entries hmem).nodes

/-! ## Finished tables -/

theorem toTable_eq_map (entries : Entries) :
    toTable entries = entries.map fun e => (e.1, e.2.toValue) := by
  induction entries with
  | nil => rfl
  | cons e rest ih => rw [toTable, ih, List.map_cons]

theorem toTables_eq_map (elements : List Entries) :
    toTables elements = elements.map fun entries => .table (toTable entries) := by
  induction elements with
  | nil => rfl
  | cons entries rest ih => rw [toTables, ih, List.map_cons]

theorem names_toTable (entries : Entries) : Keyed.names (toTable entries) = entries.names := by
  simp [toTable_eq_map, Keyed.names]

/-- A table is finished as it was under way, key by key. -/
theorem distinctKeys_toTable {entries : Entries} (hnames : entries.names.Nodup)
    (h : ∀ e ∈ entries, e.2.toValue.DistinctKeys) : (Value.table (toTable entries)).DistinctKeys := by
  refine .table (by rwa [names_toTable]) fun e he => ?_
  rw [toTable_eq_map] at he
  obtain ⟨entry, hentry, rfl⟩ := List.mem_map.mp he
  exact h entry hentry

theorem Node.DistinctKeys.toValue {node : Node} (h : node.DistinctKeys) :
    node.toValue.DistinctKeys := by
  induction h with
  | value h => exact h
  | table hnames _ ih => exact distinctKeys_toTable hnames ih
  | tables hnames _ ih =>
    refine .arr fun v hv => ?_
    rw [toTables_eq_map] at hv
    obtain ⟨entries, hentries, rfl⟩ := List.mem_map.mp hv
    exact distinctKeys_toTable (hnames entries hentries) (ih entries hentries)

theorem Entries.Distinct.toTable {entries : Entries} (h : entries.Distinct) :
    (Value.table (Toml.toTable entries)).DistinctKeys :=
  distinctKeys_toTable h.names fun e he => (h.nodes e he).toValue

/-! ## Changes -/

namespace Entries.Distinct

variable {entries inner out : Entries} {key : String} {node : Node}

theorem empty : Entries.Distinct [] := ⟨List.nodup_nil, fun _ he => by cases he⟩

theorem of_find? (h : entries.Distinct) (hfind : entries.find? key = some node) :
    node.DistinctKeys := h.nodes _ (Keyed.mem_of_find? hfind)

theorem put (h : entries.Distinct) (key : String) (hnode : node.DistinctKeys) :
    Entries.Distinct (entries.put key node) where
  names := Keyed.nodup_names_put h.names key node
  nodes e he := by
    rcases Keyed.eq_or_mem_of_mem_put he with rfl | he
    · exact hnode
    · exact h.nodes e he

/-- A key that is not there can be added. -/
theorem concat (h : entries.Distinct) (hkey : key ∉ entries.names) (hnode : node.DistinctKeys) :
    Entries.Distinct (entries ++ [(key, node)]) where
  names := by
    rw [Keyed.names, List.map_append, List.nodup_append]
    refine ⟨h.names, List.pairwise_singleton _ key, fun name hname other hother => ?_⟩
    rw [List.mem_singleton.mp hother]
    rintro rfl
    exact hkey hname
  nodes e he := by
    rcases List.mem_append.mp he with he | he
    · exact h.nodes e he
    · rw [List.mem_singleton.mp he]
      exact hnode

theorem erase (h : entries.Distinct) (key : String) : Entries.Distinct (entries.erase key) where
  names := Keyed.nodup_names_erase h.names key
  nodes e he := h.nodes e (List.mem_filter.mp he).1

/-- What is changed further in may change anything there that keeps the keys distinct. -/
theorem changeAt {dotted : Bool} {change : Origin → Entries → Option Entries}
    (hchange : ∀ {origin inner out}, Entries.Distinct inner → change origin inner = some out →
      Entries.Distinct out)
    {path : List String} {origin : Origin} (h : entries.Distinct)
    (hout : Toml.changeAt dotted change path origin entries = some out) : out.Distinct := by
  induction path generalizing origin entries out with
  | nil => exact hchange h hout
  | cons key path ih =>
    unfold Toml.changeAt at hout
    split at hout
    · obtain ⟨inner, hinner, rfl⟩ := Option.map_eq_some_iff.mp hout
      exact h.put key (Node.distinctKeys_table_iff.mpr (ih .empty hinner))
    · rename_i hfind
      have hheld := Node.distinctKeys_table_iff.mp (h.of_find? hfind)
      split at hout
      · cases hout
      · obtain ⟨inner, hinner, rfl⟩ := Option.map_eq_some_iff.mp hout
        exact h.put key (Node.distinctKeys_table_iff.mpr (ih hheld hinner))
    · rename_i elements hfind
      have hheld := Node.distinctKeys_tables_iff.mp (h.of_find? hfind)
      split at hout
      · cases hout
      · rename_i held hlast
        obtain ⟨inner, hinner, rfl⟩ := Option.map_eq_some_iff.mp hout
        have hnew := ih (hheld held (List.mem_of_getLast? hlast)) hinner
        refine h.put key (Node.distinctKeys_tables_iff.mpr fun element hmem => ?_)
        rcases List.mem_append.mp hmem with hmem | hmem
        · exact hheld element (List.dropLast_subset _ hmem)
        · rw [List.mem_singleton.mp hmem]
          exact hnew
    · cases hout

theorem addValue {path : List String} {v : Value} (h : entries.Distinct) (hv : v.DistinctKeys)
    (hout : Toml.addValue path key v entries = some out) : out.Distinct := by
  refine changeAt (fun {_ inner _} hinner hchange => ?_) h hout
  split at hchange
  · cases hchange
  · split at hchange
    · cases hchange
    · rename_i hfind
      cases hchange
      exact hinner.concat (by rwa [Keyed.mem_names_iff]) (.value hv)

theorem heldAt {path : List String} {name : String} {held : Entries} (h : entries.Distinct)
    (hheld : Section.heldAt path name entries = some held) : held.Distinct := by
  induction path generalizing entries with
  | nil =>
    unfold Section.heldAt at hheld
    split at hheld
    · cases hheld
      exact .empty
    · rename_i hfind
      cases hheld
      exact Node.distinctKeys_table_iff.mp (h.of_find? hfind)
    · cases hheld
  | cons key path ih =>
    unfold Section.heldAt at hheld
    split at hheld
    · cases hheld
      exact .empty
    · rename_i hfind
      exact ih (Node.distinctKeys_table_iff.mp (h.of_find? hfind)) hheld
    · rename_i elements hfind
      refine ih ?_ hheld
      rcases hlast : elements.getLast? with _ | element
      · exact .empty
      · exact Node.distinctKeys_tables_iff.mp (h.of_find? hfind) element
          (List.mem_of_getLast? hlast)
    · cases hheld

end Entries.Distinct

/-! ## Sections -/

/-- A document under way in which no key stands twice. -/
structure Section.Distinct (s : Section) : Prop where
  root : s.root.Distinct
  current : s.current.Distinct

namespace Section.Distinct

variable {s next : Section} {key : List String}

theorem close {out : Entries} (h : s.Distinct) (hout : s.close = some out) : out.Distinct := by
  simp only [Section.close] at hout
  split at hout
  · cases hout
    exact h.current
  · split at hout
    · refine h.root.changeAt (fun {_ inner out} hinner hchange => ?_) hout
      split at hchange
      · cases hchange
        refine hinner.put _ (Node.distinctKeys_tables_iff.mpr fun element hmem => ?_)
        rw [List.mem_singleton.mp hmem]
        exact h.current
      · rename_i elements hfind
        cases hchange
        have hheld := Node.distinctKeys_tables_iff.mp (hinner.of_find? hfind)
        refine hinner.put _ (Node.distinctKeys_tables_iff.mpr fun element hmem => ?_)
        rcases List.mem_append.mp hmem with hmem | hmem
        · exact hheld element hmem
        · rw [List.mem_singleton.mp hmem]
          exact h.current
      · cases hchange
    · refine h.root.changeAt (fun {_ inner out} hinner hchange => ?_) hout
      cases hchange
      refine (hinner.erase _).concat ?_ (Node.distinctKeys_table_iff.mpr h.current)
      rw [Keyed.mem_names_iff, Keyed.find?_erase, if_pos rfl]
      exact Bool.false_ne_true

theorem openTable (h : s.Distinct) (hnext : s.openTable key = some next) : next.Distinct := by
  simp only [Section.openTable, Option.bind_eq_bind, Option.bind_eq_some_iff] at hnext
  obtain ⟨root, hroot, held, hheld, hnext⟩ := hnext
  cases hnext
  exact ⟨h.close hroot, (h.close hroot).heldAt hheld⟩

theorem openElement (h : s.Distinct) (hnext : s.openElement key = some next) :
    next.Distinct := by
  simp only [Section.openElement, Option.bind_eq_bind, Option.bind_eq_some_iff] at hnext
  obtain ⟨root, hroot, hnext⟩ := hnext
  cases hnext
  exact ⟨h.close hroot, .empty⟩

theorem add {v : Value} (h : s.Distinct) (hv : v.DistinctKeys) (hnext : s.add key v = some next) :
    next.Distinct := by
  simp only [Section.add, Option.bind_eq_bind, Option.bind_eq_some_iff] at hnext
  obtain ⟨current, hcurrent, hnext⟩ := hnext
  cases hnext
  exact ⟨h.root, h.current.addValue hv hcurrent⟩

end Section.Distinct

/-! ## Values -/

theorem distinctKeys_of_wholeValue {n : Int} {v : Value} (h : wholeValue n = some v) :
    v.DistinctKeys := by
  unfold wholeValue at h
  split at h
  · cases h
    exact .int n
  · cases h

theorem distinctKeys_of_floatValue {negative : Bool} {digits : List Char} {power : Int} {v : Value}
    (h : floatValue negative digits power = some v) : v.DistinctKeys := by
  simp only [floatValue] at h
  split at h
  · cases h
  · cases h
    exact .float _

theorem distinctKeys_of_readNumber {s rest : List Char} {v : Value}
    (h : readNumber s = some (v, rest)) : v.DistinctKeys := by
  have hbase {base : Nat} {isDigit : Char → Bool} {digits : List Char}
      (h : readBase base isDigit digits = some (v, rest)) : v.DistinctKeys := by
    simp only [readBase, Option.bind_eq_bind, Option.bind_eq_some_iff] at h
    obtain ⟨_, -, value, hvalue, h⟩ := h
    cases h
    exact distinctKeys_of_wholeValue hvalue
  unfold readNumber at h
  split at h
  · exact hbase h
  · exact hbase h
  · exact hbase h
  · dsimp only at h
    split at h
    · cases h
      exact .float _
    · cases h
      exact .float _
    · simp only [readDecimal, Option.bind_eq_bind, Option.bind_eq_some_iff] at h
      obtain ⟨_, -, _, -, _, -, h⟩ := h
      split at h
      · obtain ⟨value, hvalue, h⟩ := Option.bind_eq_some_iff.mp h
        cases h
        exact distinctKeys_of_wholeValue hvalue
      · obtain ⟨value, hvalue, h⟩ := Option.bind_eq_some_iff.mp h
        cases h
        exact distinctKeys_of_floatValue hvalue

theorem distinctKeys_of_readScalarValue {s rest : List Char} {v : Value}
    (h : readScalarValue s = some (v, rest)) : v.DistinctKeys := by
  unfold readScalarValue at h
  split at h
  · cases h
    exact .bool true
  · cases h
    exact .bool false
  · split at h
    · obtain ⟨_, -, h⟩ := Option.map_eq_some_iff.mp h
      cases h
      exact .str _
    · split at h
      · cases h
        exact .moment _
      · exact distinctKeys_of_readNumber h
  · cases h

/-- What a reader takes off the front of a text is a value with distinct keys. -/
def ValueReader.ReadsDistinct (item : ValueReader) : Prop :=
  ∀ {s v rest}, item s = some (v, rest) → v.DistinctKeys

section

variable {item : ValueReader} {s rest : List Char}

theorem distinctKeys_of_readItems (hitem : item.ReadsDistinct) {fuel : Nat} {vs : List Value}
    (h : readItems item fuel s = some (vs, rest)) : ∀ v ∈ vs, v.DistinctKeys := by
  induction fuel generalizing s vs with
  | zero => cases h
  | succ fuel ih =>
    simp only [readItems, Option.bind_eq_bind, Option.bind_eq_some_iff] at h
    obtain ⟨text, -, h⟩ := h
    split at h
    · cases h
      exact fun v hv => by cases hv
    · obtain ⟨⟨first, behind⟩, hfirst, h⟩ := Option.bind_eq_some_iff.mp h
      obtain ⟨behind, -, h⟩ := Option.bind_eq_some_iff.mp h
      split at h
      · obtain ⟨⟨later, behind⟩, hlater, h⟩ := Option.bind_eq_some_iff.mp h
        cases h
        intro v hv
        rcases List.mem_cons.mp hv with rfl | hv
        · exact hitem hfirst
        · exact ih hlater v hv
      · cases h
        intro v hv
        rw [List.mem_singleton.mp hv]
        exact hitem hfirst
      · cases h

theorem distinctKeys_of_readPair (hitem : item.ReadsDistinct) {key : List String} {v : Value}
    (h : readPair item s = some (key, v, rest)) : v.DistinctKeys := by
  simp only [readPair, Option.bind_eq_bind, Option.bind_eq_some_iff] at h
  obtain ⟨_, -, _, -, ⟨value, _⟩, hvalue, h⟩ := h
  cases h
  exact hitem hvalue

theorem distinct_of_readPairs (hitem : item.ReadsDistinct) {fuel : Nat} {entries out : Entries}
    (hentries : entries.Distinct) (h : readPairs item fuel entries s = some (out, rest)) :
    out.Distinct := by
  induction fuel generalizing s entries with
  | zero => cases h
  | succ fuel ih =>
    simp only [readPairs, Option.bind_eq_bind, Option.bind_eq_some_iff] at h
    obtain ⟨⟨key, v, behind⟩, hpair, added, hadded, h⟩ := h
    have hdistinct := hentries.addValue (distinctKeys_of_readPair hitem hpair) hadded
    split at h
    · exact ih hdistinct h
    · cases h
      exact hdistinct
    · cases h

theorem distinctKeys_of_readInline (hitem : item.ReadsDistinct) {v : Value}
    (h : readInline item s = some (v, rest)) : v.DistinctKeys := by
  unfold readInline at h
  split at h
  · cases h
    exact .table List.nodup_nil fun _ he => by cases he
  · obtain ⟨⟨entries, _⟩, hentries, h⟩ := Option.map_eq_some_iff.mp h
    cases h
    exact (distinct_of_readPairs hitem .empty hentries).toTable

end

/-- However deep values are nested, they have distinct keys. -/
theorem readsDistinct_readValue (levels : Nat) : (readValue levels).ReadsDistinct := by
  induction levels with
  | zero => exact distinctKeys_of_readScalarValue
  | succ levels ih =>
    intro s v rest h
    unfold readValue at h
    split at h
    · obtain ⟨⟨vs, _⟩, hvs, h⟩ := Option.map_eq_some_iff.mp h
      cases h
      exact .arr (distinctKeys_of_readItems ih hvs)
    · exact distinctKeys_of_readInline ih h
    · exact distinctKeys_of_readScalarValue h

/-! ## Lines and documents -/

namespace Section.Distinct

variable {s next : Section} {text rest : List Char}

theorem readHeader (h : s.Distinct) (hnext : readHeader s text = some (next, rest)) :
    next.Distinct := by
  unfold Toml.readHeader at hnext
  split at hnext
  · simp only [Option.bind_eq_bind, Option.bind_eq_some_iff] at hnext
    obtain ⟨_, -, _, -, _, -, _, -, opened, hopened, hnext⟩ := hnext
    cases hnext
    exact h.openElement hopened
  · simp only [Option.bind_eq_bind, Option.bind_eq_some_iff] at hnext
    obtain ⟨_, -, _, -, _, -, opened, hopened, hnext⟩ := hnext
    cases hnext
    exact h.openTable hopened

theorem readLine (h : s.Distinct) (hnext : readLine s text = some (next, rest)) :
    next.Distinct := by
  unfold Toml.readLine at hnext
  split at hnext
  · exact h.readHeader hnext
  · simp only [Option.bind_eq_bind, Option.bind_eq_some_iff] at hnext
    obtain ⟨⟨key, v, _⟩, hpair, _, -, added, hadded, hnext⟩ := hnext
    cases hnext
    exact h.add (distinctKeys_of_readPair (readsDistinct_readValue _) hpair) hadded

theorem readLines {fuel : Nat} (h : s.Distinct) (hnext : readLines fuel s text = some next) :
    next.Distinct := by
  induction fuel generalizing s text with
  | zero => cases hnext
  | succ fuel ih =>
    unfold Toml.readLines at hnext
    split at hnext
    · cases hnext
      exact h
    · split at hnext
      · exact ih h hnext
      · split at hnext
        · rename_i hline
          exact ih (h.readLine hline) hnext
        · cases hnext

end Section.Distinct

/-- No table of a document holds a key twice. -/
theorem distinctKeys_of_parse? {text : String} {doc : Table} (h : parse? text = some doc) :
    (Value.table doc).DistinctKeys := by
  simp only [parse?, Option.bind_eq_bind, Option.bind_eq_some_iff] at h
  obtain ⟨s, hlines, entries, hclose, h⟩ := h
  cases h
  have hs : s.Distinct := Section.Distinct.readLines ⟨.empty, .empty⟩ hlines
  exact (hs.close hclose).toTable

end Transcript.Toml
