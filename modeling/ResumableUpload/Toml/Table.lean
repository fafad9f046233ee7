import ResumableUpload.Toml.Scalar

/-!
# Tables in TOML

A table maps keys to nodes: values, tables, and arrays of tables. How a table came to be decides
what may still be added to it. A table opened by a header, or written inline, is closed for dotted
keys from outside; one that a longer header implied may get a header of its own, once; one made by
dotted keys may only be added to by dotted keys.
-/

namespace ResumableUpload.Toml

/-- How a table came to be. -/
inductive Origin
  /-- By a header of its own. -/
  | header
  /-- By the header of a table inside it. -/
  | implied
  /-- By a dotted key. -/
  | dotted
  deriving DecidableEq, Repr

/-- What a key stands for. -/
inductive Node
  | value (v : Value)
  | table (origin : Origin) (entries : List (String × Node))
  /-- An array of tables. Only the last table can still be added to, and only it is kept. -/
  | tables (last : List (String × Node))

/-- The entries of a table, in no particular order. -/
abbrev Entries := List (String × Node)

namespace Entries

/-- The node of a key. -/
def get? (es : Entries) (key : String) : Option Node := List.lookup key es

/-- Gives a key a node in place of the one it had. -/
def put (es : Entries) (key : String) (n : Node) : Entries :=
  (key, n) :: es.filter (·.1 != key)

@[simp] theorem get?_nil (key : String) : get? [] key = none := rfl

@[simp] theorem get?_put (es : Entries) (key other : String) (n : Node) :
    (es.put key n).get? other = if other = key then some n else es.get? other := by
  unfold get? put
  by_cases h : other = key
  · simp [h]
  · have h' : (other == key) = false := by simpa using h
    simp only [List.lookup_cons, h', h, if_false]
    induction es with
    | nil => rfl
    | cons e es ih =>
      obtain ⟨k, m⟩ := e
      by_cases hk : k = key
      · simp only [List.filter, hk, bne_self_eq_false, ih]
        rw [List.lookup_cons, h']
      · have hk' : (k != key) = true := by simpa using hk
        simp only [List.filter, hk', List.lookup_cons, ih]

/-- Changes the table at the end of a path, which may be missing. Tables that are missing on the way
are made with the origin `made`. A dotted key does not lead into a table with a header. -/
def modify (made : Origin) (change : Origin → Entries → Option Entries) (origin : Origin)
    (es : Entries) : List String → Option Entries
  | [] => change origin es
  | key :: path => do
    match es.get? key with
    | none => return es.put key (.table made (← modify made change made [] path))
    | some (.table o inner) =>
      if made = .dotted ∧ o = .header then none
      else return es.put key (.table o (← modify made change o inner path))
    | some (.tables last) => return es.put key (.tables (← modify made change .header last path))
    | some (.value _) => none

/-- Adds a value to the table that a dotted key leads to. A key that is not dotted adds to a table
with a header, a dotted one to a table made by dotted keys. -/
def insert (es : Entries) (path : List String) (key : String) (v : Value) : Option Entries :=
  modify .dotted
    (fun origin es =>
      if (origin = .dotted ↔ path.isEmpty) ∨ (es.get? key).isSome then none
      else some (es.put key (.value v)))
    .header es path

/-- Opens the table of a header. -/
def openTable (es : Entries) (path : List String) (key : String) : Option Entries :=
  modify .implied
    (fun _ es =>
      match es.get? key with
      | none => some (es.put key (.table .header []))
      | some (.table .implied inner) => some (es.put key (.table .header inner))
      | _ => none)
    .header es path

/-- Opens the next table of an array of tables. -/
def openElement (es : Entries) (path : List String) (key : String) : Option Entries :=
  modify .implied
    (fun _ es =>
      match es.get? key with
      | none | some (.tables _) => some (es.put key (.tables []))
      | _ => none)
    .header es path

/-- Adds a value to the table that the last header has opened at `current`. -/
def insertAt (es : Entries) (current path : List String) (key : String) (v : Value) :
    Option Entries :=
  modify .implied (fun _ es => es.insert path key v) .header es current

/-- The value of a key. -/
def value? (es : Entries) (key : String) : Option Value :=
  match es.get? key with
  | some (.value v) => some v
  | _ => none

end Entries

end ResumableUpload.Toml
