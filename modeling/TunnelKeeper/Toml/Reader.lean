import TunnelKeeper.Toml.Scalar

/-!
# TOML documents — from lines to a table

The text is read into statements first, which are headers and assignments (`Statement`), and the
statements then fill the document's table (`Document.ofStatements?`).  Values nest at most one less
than `nestingLimit` deep.
-/

namespace TunnelKeeper.Toml

/-- What a line of a document does. -/
inductive Statement where
  /-- Opens a table. -/
  | table (path : List String) (key : String)
  /-- Opens the next table of a list. -/
  | element (path : List String) (key : String)
  /-- Sets a key of the table that is open. -/
  | assign (path : List String) (key : String) (value : Value)
deriving Repr

/-- The text after a comment, if there is one. -/
def skipComment : List Char → List Char
  | '#' :: rest => rest.dropWhile isPlain
  | s => s

/-- The text after blanks, comments and line ends. -/
def skipLines : (fuel : Nat) → List Char → List Char
  | 0, s => s
  | fuel + 1, s =>
    let s := skipBlanks s
    match s with
    | '#' :: _ =>
      match lineEnd? (skipComment s) with
      | some rest => skipLines fuel rest
      | none => s
    | _ =>
      match lineEnd? s with
      | some rest => skipLines fuel rest
      | none => s

/-- The text after white space inside a list. -/
def skipAll (s : List Char) : List Char := skipLines (s.length + 1) s

mutual

/-- A value; `depth` lists and inline tables are open around it. -/
def readValue : (fuel depth : Nat) → List Char → Option (Value × List Char)
  | 0, _, _ => none
  | fuel + 1, depth, s =>
    match s with
    | '"' :: _ => (readString s).map fun (t, rest) => (.text t, rest)
    | '\'' :: _ => (readString s).map fun (t, rest) => (.text t, rest)
    | '[' :: rest =>
      if nestingLimit ≤ depth + 1 then none
      else (readItems fuel (depth + 1) rest).map fun (items, rest) => (.list items, rest)
    | '{' :: rest =>
      if nestingLimit ≤ depth + 1 then none
      else
        match skipBlanks rest with
        | '}' :: rest => some (.table [], rest)
        | rest =>
          (readPairs fuel (depth + 1) [] rest).map fun (entries, rest) =>
            (.table (closeEntries entries), rest)
    | 't' :: _ => (afterWord? ['t', 'r', 'u', 'e'] s).map (.bool true, ·)
    | 'f' :: _ => (afterWord? ['f', 'a', 'l', 's', 'e'] s).map (.bool false, ·)
    | 'i' :: _ => readNamed s
    | 'n' :: _ => readNamed s
    | _ => readDateOrNumber s

/-- The items of a list up to its closing bracket; the last one may be followed by a comma. -/
def readItems : (fuel depth : Nat) → List Char → Option (List Value × List Char)
  | 0, _, _ => none
  | fuel + 1, depth, s =>
    match skipAll s with
    | ']' :: rest => some ([], rest)
    | s => do
      let (item, rest) ← readValue fuel depth s
      match skipAll rest with
      | ']' :: rest => return ([item], rest)
      | ',' :: rest =>
        let (items, rest) ← readItems fuel depth rest
        return (item :: items, rest)
      | _ => none

/-- The pairs of an inline table up to its closing brace. -/
def readPairs : (fuel depth : Nat) → Branches → List Char → Option (Branches × List Char)
  | 0, _, _, _ => none
  | fuel + 1, depth, entries, s => do
    let ((path, key), rest) ← readKey s
    let (value, rest) ← readValue fuel depth (skipBlanks (← after? '=' rest))
    let entries ← entries.assign path key value .header
    match skipBlanks rest with
    | '}' :: rest => return (entries, rest)
    | ',' :: rest => readPairs fuel depth entries rest
    | _ => none

end

/-- The text after the end of a line that has nothing more to say. -/
def endLine (s : List Char) : Option (List Char) :=
  let s := skipComment (skipBlanks s)
  if s.isEmpty then some [] else lineEnd? s

/-- The statement at the front of a text and the text after its line. -/
def readStatement (s : List Char) : Option (Statement × List Char) :=
  match s with
  | '[' :: '[' :: rest => do
    let ((path, key), rest) ← readKey rest
    return (.element path key, ← endLine (← after? ']' (← after? ']' rest)))
  | '[' :: rest => do
    let ((path, key), rest) ← readKey rest
    return (.table path key, ← endLine (← after? ']' rest))
  | s => do
    let ((path, key), rest) ← readKey s
    let rest := skipBlanks (← after? '=' rest)
    let (value, rest) ← readValue (2 * rest.length + 2) 0 rest
    return (.assign path key value, ← endLine rest)

/-- The statements of a text. -/
def readStatements : (fuel : Nat) → List Char → Option (List Statement)
  | 0, _ => none
  | fuel + 1, s =>
    let s := skipBlanks s
    match s with
    | [] => some []
    | '#' :: _ => do readStatements fuel (← endLine s)
    | c :: _ =>
      if c == '\n' || c == '\r' then do readStatements fuel (← lineEnd? s)
      else do
        let (statement, rest) ← readStatement s
        return statement :: (← readStatements fuel rest)

/-- A document that is being filled, and the path of the table that is open. -/
structure Draft where
  root : Branches
  current : List String

namespace Draft

def empty : Draft := ⟨[], []⟩

/-- Carries out one statement. -/
def apply (draft : Draft) : Statement → Option Draft
  | .table path key => do
    let root ← draft.root.modify false (fun _ inner => inner.openTable key) path .header
    return ⟨root, path ++ [key]⟩
  | .element path key => do
    let root ← draft.root.modify false (fun _ inner => inner.openElement key) path .header
    return ⟨root, path ++ [key]⟩
  | .assign path key value => do
    let root ← draft.root.modify false
      (fun origin inner => inner.assign path key value origin) draft.current .header
    return { draft with root }

end Draft

/-- The table that statements fill. -/
def ofStatements? (statements : List Statement) : Option (List (String × Value)) := do
  let draft ← statements.foldlM Draft.apply .empty
  return closeEntries draft.root

/-- The text without a byte order mark. -/
def afterMark : List Char → List Char
  | c :: rest => if c.toNat == 0xFEFF then rest else c :: rest
  | [] => []

/-- The table of a whole document. -/
def readChars? (s : List Char) : Option (List (String × Value)) := do
  let s := afterMark s
  ofStatements? (← readStatements (s.length + 1) s)

def read? (s : String) : Option (List (String × Value)) := readChars? s.toList

end TunnelKeeper.Toml
