import JieziCloud.Json.Text.Quoted

namespace json

mutual

/-- The compact text of a document: no blank between tokens, members in order. -/
def write_document : Json → List Char
  | .null => ['n', 'u', 'l', 'l']
  | .bool true => ['t', 'r', 'u', 'e']
  | .bool false => ['f', 'a', 'l', 's', 'e']
  | .num n => write_number n
  | .str s => write_str s
  | .arr items => '[' :: (write_items items ++ [']'])
  | .obj members => '{' :: (write_members members ++ ['}'])

def write_items : List Json → List Char
  | [] => []
  | [item] => write_document item
  | item :: next :: items => write_document item ++ ',' :: write_items (next :: items)

def write_members : List (String × Json) → List Char
  | [] => []
  | [(key, value)] => write_str key ++ ':' :: write_document value
  | (key, value) :: next :: members =>
    write_str key ++ ':' :: (write_document value ++ ',' :: write_members (next :: members))

end

def skip_whitespace : List Char → List Char :=
  List.dropWhile fun c => c = ' ' ∨ c = '\n' ∨ c = '\t' ∨ c = '\r'

abbrev Reader (A : Type) := List Char → Except ParseError (A × List Char)

/-- The items of an array after its first one has been seen to exist, up to
    the closing bracket. Every round consumes text, which the fuel counts. -/
def read_items (item : Reader Json) : Nat → Reader (List Json)
  | 0, _ => .error .malformed
  | fuel + 1, cs => do
    let (head, cs) ← item (skip_whitespace cs)
    match skip_whitespace cs with
    | ']' :: cs => .ok ([head], cs)
    | ',' :: cs => do
      let (tail, cs) ← read_items item fuel cs
      .ok (head :: tail, cs)
    | _ => .error .malformed

def read_member (value : Reader Json) : Reader (String × Json)
  | '"' :: cs => do
    let (key, cs) ← read_str cs
    match skip_whitespace cs with
    | ':' :: cs => do
      let (j, cs) ← value (skip_whitespace cs)
      .ok ((key, j), cs)
    | _ => .error .malformed
  | _ => .error .malformed

def read_members (value : Reader Json) : Nat → Reader (List (String × Json))
  | 0, _ => .error .malformed
  | fuel + 1, cs => do
    let (head, cs) ← read_member value (skip_whitespace cs)
    match skip_whitespace cs with
    | '}' :: cs => .ok ([head], cs)
    | ',' :: cs => do
      let (tail, cs) ← read_members value fuel cs
      .ok (head :: tail, cs)
    | _ => .error .malformed

def read_array (item : Reader Json) (cs : List Char) : Except ParseError (Json × List Char) :=
  match skip_whitespace cs with
  | ']' :: cs => .ok (.arr [], cs)
  | cs => do
    let (items, cs) ← read_items item (cs.length + 1) cs
    .ok (.arr items, cs)

def read_object (value : Reader Json) (cs : List Char) : Except ParseError (Json × List Char) :=
  match skip_whitespace cs with
  | '}' :: cs => .ok (.obj [], cs)
  | cs => do
    let (members, cs) ← read_members value (cs.length + 1) cs
    .ok (.obj members, cs)

/-- One value. `nested` reads the values inside an array or object and is
    absent once the nesting budget is spent. -/
def read_value (nested : Option (Reader Json)) : Reader Json
  | 'n' :: 'u' :: 'l' :: 'l' :: cs => .ok (.null, cs)
  | 't' :: 'r' :: 'u' :: 'e' :: cs => .ok (.bool true, cs)
  | 'f' :: 'a' :: 'l' :: 's' :: 'e' :: cs => .ok (.bool false, cs)
  | '"' :: cs => do
    let (s, cs) ← read_str cs
    .ok (.str s, cs)
  | '[' :: cs =>
    match nested with
    | none => .error .recursion_limit_exceeded
    | some reader => read_array reader cs
  | '{' :: cs =>
    match nested with
    | none => .error .recursion_limit_exceeded
    | some reader => read_object reader cs
  | cs => do
    let (n, cs) ← read_number cs
    .ok (.num n, cs)

/-- A value inside which at most `budget` arrays and objects are nested. -/
def read_document : Nat → Reader Json
  | 0 => read_value none
  | budget + 1 => read_value (some (read_document budget))

/-- A whole text: one value, with blanks around it and nothing else. -/
def parse_document (limit : Nat) (cs : List Char) : Except ParseError Json := do
  let (j, cs) ← read_document limit (skip_whitespace cs)
  match skip_whitespace cs with
  | [] => .ok j
  | _ => .error .trailing_characters

end json
