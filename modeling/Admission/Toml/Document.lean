import Admission.Toml.Reader

/-!
Documents: statements in lines, which enter values under dotted keys, open a table, or add a table
to a row of tables. No name is given twice, and a table that was opened by its header is not opened
again. The text of a setting is the value of the first statement of a document, and the statements
that follow have to be sound.
-/

set_option autoImplicit false
set_option relaxedAutoImplicit false

namespace Admission.Toml

/-- What a name stands for: a value, which is closed, a table, or a row of tables, of which the last
one can still grow. A table is marked with the section from whose end on it is settled; settled
tables are neither opened nor reached by dotted keys. -/
inductive Node
  | value
  | table (mark : Option Nat) (names : List (String × Node))
  | tables (names : List (String × Node))

abbrev Names := List (String × Node)

/-- The mark of a table that is opened by its header. -/
def openedMark : Nat := 0

def isSettled (now : Nat) (mark : Option Nat) : Bool :=
  mark.any (· < now)

/-- Changes the names of the table at a path. Tables that are missing are made. -/
def within? (change : Names → Option Names) : List String → Names → Option Names
  | [], names => change names
  | name :: path, names =>
    match names.lookup name with
    | none => (within? change path []).map fun inner ↦ Entries.set names name (.table none inner)
    | some .value => none
    | some (.table mark inner) =>
      (within? change path inner).map fun inner ↦ Entries.set names name (.table mark inner)
    | some (.tables inner) =>
      (within? change path inner).map fun inner ↦ Entries.set names name (.tables inner)

/-- Enters a value under a dotted key in some section, which marks the tables on the way. -/
def enter? (now : Nat) : List String → Names → Option Names
  | [], _ => none
  | [name], names =>
    if (names.lookup name).isSome then none else some (Entries.set names name .value)
  | name :: path, names =>
    match names.lookup name with
    | none => (enter? now path []).map fun inner ↦ Entries.set names name (.table (some now) inner)
    | some (.table mark inner) =>
      if isSettled now mark then none
      else (enter? now path inner).map fun inner ↦
        Entries.set names name (.table (some (mark.getD now)) inner)
    | some _ => none

/-- Opens a table by its header. -/
def openTable? (now : Nat) (name : String) (names : Names) : Option Names :=
  match names.lookup name with
  | none => some (Entries.set names name (.table (some openedMark) []))
  | some (.table mark inner) =>
    if isSettled now mark then none
    else some (Entries.set names name (.table (some openedMark) inner))
  | some _ => none

/-- Adds a table to a row of tables. -/
def addTable? (name : String) (names : Names) : Option Names :=
  match names.lookup name with
  | none => some (Entries.set names name (.tables []))
  | some (.tables _) => some (Entries.set names name (.tables []))
  | some _ => none

/-- A document while it is read: its names, the table that keys belong to, and the number of the
section, counted from one. -/
structure Document where
  names : Names
  header : List String := []
  part : Nat := 1

namespace Document

/-- Begins a section. -/
def beginPart? (doc : Document) (change : Nat → String → Names → Option Names)
    (header : List String) : Option Document := do
  let now := doc.part + 1
  let name ← header.getLast?
  let names ← within? (change now name) header.dropLast doc.names
  return { names, header, part := now }

/-- Enters a value under a dotted key of the current table. -/
def enter? (doc : Document) (path : List String) : Option Document :=
  (within? (Toml.enter? doc.part path) doc.header doc.names).map fun names ↦ { doc with names }

end Document

/-- A result that may be missing because the text breaks the grammar. -/
def orMalformed {α : Type} : Option α → Except ReadError α
  | some a => .ok a
  | none => .error .malformed

/-- The key of a header, up to the bracket that closes it. -/
def headerKey? (cs : List Char) : Option (List String × List Char) :=
  match key? (cs.length + 1) (skipSpace cs) with
  | some (path, ']' :: rest) => some (path, rest)
  | _ => none

/-- A key with its value. -/
def entry (doc : Document) (cs : List Char) : Except ReadError (Document × List Char) :=
  match key? (cs.length + 1) cs with
  | some (path, '=' :: rest) => do
    let (_, rest) ← value (2 * rest.length + 2) (skipSpace rest)
    return (← orMalformed (doc.enter? path), rest)
  | _ => .error .malformed

/-- A statement, which may also be missing in front of a comment. -/
def statement (doc : Document) (cs : List Char) : Except ReadError (Document × List Char) :=
  match cs with
  | '#' :: _ => .ok (doc, cs)
  | '[' :: '[' :: rest =>
    match headerKey? rest with
    | some (path, ']' :: rest) => do
      return (← orMalformed (doc.beginPart? (fun _ ↦ addTable?) path), rest)
    | _ => .error .malformed
  | '[' :: rest =>
    match headerKey? rest with
    | some (path, rest) => do return (← orMalformed (doc.beginPart? openTable? path), rest)
    | none => .error .malformed
  | cs => entry doc cs

mutual

/-- Reads statements to the end of the text. -/
def statements : Nat → Document → List Char → Except ReadError Unit
  | 0, _, _ => .error .malformed
  | fuel + 1, doc, cs =>
    match skipSpace cs with
    | [] => .ok ()
    | '\n' :: rest => statements fuel doc rest
    | cs => do
      let (doc, rest) ← statement doc cs
      lineEnd fuel doc rest

/-- Reads the end of a line and the statements after it. -/
def lineEnd : Nat → Document → List Char → Except ReadError Unit
  | 0, _, _ => .error .malformed
  | fuel + 1, doc, cs =>
    match skipComment? (skipSpace cs) with
    | some [] => .ok ()
    | some ('\n' :: rest) => statements fuel doc rest
    | _ => .error .malformed

end

/-- The key that a setting's text is the value of. -/
def ownKey : String := "key"

/-- The value that a setting's text holds. -/
def read (s : String) : Except ReadError Value := do
  let cs := unifyNewlines s.toList
  let (v, rest) ← value (2 * cs.length + 2) (skipSpace cs)
  lineEnd (2 * rest.length + 2) { names := [(ownKey, .value)] } rest
  return v

end Admission.Toml
