/-!
# `Toml.Text` — texts and keys

Readers take something off the front of a text. What is left over is never looked at here: whoever
called decides what may follow.

## Contents

* `Reader` — the shape of all of them;
* `skipSpaces`, `newline?`, `lineEnd?`, `skipTrivia` — what stands between values;
* `escape`, `continuation?` — escapes within texts;
* `basicText`, `literalText`, `multilineBasic`, `multilineLiteral` — the spellings of texts;
* `text`, `key` — any text, and dotted keys.
-/

namespace StateDiagram.Toml.Read

/-- Takes something off the front of a text, or refuses. -/
abbrev Reader (α : Type) := List Char → Option (α × List Char)

/-! ## Between values -/

/-- The white space within a line. -/
def isSpace (c : Char) : Bool :=
  c == ' ' || c == '\t'

/-- The text without the white space in front. -/
def skipSpaces (cs : List Char) : List Char :=
  cs.dropWhile isSpace

/-- What follows a line end. -/
def newline? : List Char → Option (List Char)
  | '\n' :: rest => some rest
  | '\r' :: '\n' :: rest => some rest
  | _ => none

/-- What a comment may hold: all but control characters, of which tabs are allowed. -/
def isCommentChar (c : Char) : Bool :=
  c == '\t' || 0x20 ≤ c.toNat && c.toNat ≠ 0x7F

/-- The text without a comment in front. -/
def skipComment : List Char → List Char
  | '#' :: rest => rest.dropWhile isCommentChar
  | cs => cs

/-- What follows the rest of a line that holds nothing more than a comment. -/
def lineEnd? (cs : List Char) : Option (List Char) :=
  match skipComment (skipSpaces cs) with
  | [] => some []
  | rest => newline? rest

/-- The text without the spaces, comments and line ends in front. -/
def skipTrivia (cs : List Char) : List Char :=
  match cs with
  | ' ' :: rest | '\t' :: rest | '\n' :: rest | '\r' :: '\n' :: rest => skipTrivia rest
  | '#' :: rest => skipTrivia (rest.dropWhile isCommentChar)
  | _ => cs
termination_by cs.length
decreasing_by
  all_goals simp_wf
  all_goals have := (List.dropWhile_sublist (l := rest) isCommentChar).length_le
  all_goals omega

/-! ## Texts -/

/-- What a text in double quotes may hold unescaped. -/
def isBasicChar (c : Char) : Bool :=
  isCommentChar c && c ≠ '"' && c ≠ '\\'

/-- What a text in single quotes may hold. -/
def isLiteralChar (c : Char) : Bool :=
  isCommentChar c && c ≠ '\x27'

/-- The value of a hexadecimal digit. -/
def hexValue? (c : Char) : Option Nat :=
  if c.isDigit then some (c.toNat - '0'.toNat)
  else if 'a' ≤ c ∧ c ≤ 'f' then some (c.toNat - 'a'.toNat + 10)
  else if 'A' ≤ c ∧ c ≤ 'F' then some (c.toNat - 'A'.toNat + 10)
  else none

/-- The number that digits stand for in a base. -/
def ofDigits (base : Nat) (digits : List Char) : Nat :=
  digits.foldl (fun n c => n * base + (hexValue? c).getD 0) 0

/-- The character of `count` hexadecimal digits. -/
def codePoint (count : Nat) : Reader Char := fun cs =>
  let digits := cs.take count
  let n := ofDigits 16 digits
  if digits.length = count ∧ digits.all (hexValue? · |>.isSome) ∧ n.isValidChar then
    some (Char.ofNat n, cs.drop count)
  else none

/-- The character of an escape, its backslash already taken. -/
def escape : Reader Char
  | 'b' :: rest => some ('\x08', rest)
  | 't' :: rest => some ('\t', rest)
  | 'n' :: rest => some ('\n', rest)
  | 'f' :: rest => some ('\x0c', rest)
  | 'r' :: rest => some ('\r', rest)
  | '"' :: rest => some ('"', rest)
  | '\\' :: rest => some ('\\', rest)
  | 'u' :: rest => codePoint 4 rest
  | 'U' :: rest => codePoint 8 rest
  | _ => none

/-- An escape takes at least one character. -/
theorem escape_length {cs rest : List Char} {c : Char} (h : escape cs = some (c, rest)) :
    rest.length < cs.length := by
  unfold escape at h
  split at h
  all_goals first
    | (simp only [codePoint, Option.ite_none_right_eq_some, Option.some.injEq, Prod.mk.injEq] at h
       have := congrArg List.length h.2.2
       simp only [List.length_drop] at this
       simp only [List.length_cons]
       omega)
    | simp_all

/-- The rest of a text in double quotes, with its escapes resolved. -/
def basicText (taken : List Char) (cs : List Char) : Option (String × List Char) :=
  match cs with
  | '"' :: rest => some (String.ofList taken.reverse, rest)
  | '\\' :: rest =>
    match _h : escape rest with
    | some (c, rest') => basicText (c :: taken) rest'
    | none => none
  | c :: rest => if isBasicChar c then basicText (c :: taken) rest else none
  | [] => none
termination_by cs.length
decreasing_by
  · have := escape_length _h
    simp only [List.length_cons]
    omega
  · simp

/-- The rest of a text in single quotes. -/
def literalText (cs : List Char) : Option (String × List Char) :=
  match cs.dropWhile isLiteralChar with
  | '\x27' :: rest => some (String.ofList (cs.takeWhile isLiteralChar), rest)
  | _ => none

/-- The text without the white space and line ends in front. -/
def skipBreaks : List Char → List Char
  | ' ' :: rest | '\t' :: rest | '\n' :: rest | '\r' :: '\n' :: rest => skipBreaks rest
  | cs => cs

/-- Skipping white space and line ends lengthens no text. -/
theorem skipBreaks_length (cs : List Char) : (skipBreaks cs).length ≤ cs.length := by
  fun_induction skipBreaks cs <;> simp_all <;> omega

/-- What follows a backslash that ends a line: the next character that is neither white space nor part
    of a line end. -/
def continuation? (cs : List Char) : Option (List Char) :=
  (newline? (skipSpaces cs)).map skipBreaks

/-- A line continuation is no longer than the text it stands in. -/
theorem continuation_length {cs rest : List Char} (h : continuation? cs = some rest) :
    rest.length ≤ cs.length := by
  obtain ⟨next, hn, rfl⟩ := Option.map_eq_some_iff.mp h
  have h1 := skipBreaks_length next
  have h2 := (List.dropWhile_sublist (l := cs) isSpace).length_le
  have h3 : next.length ≤ (skipSpaces cs).length := by
    unfold newline? at hn
    split at hn <;> simp_all
    omega
  unfold skipSpaces at h3
  omega

/-- The rest of a text in three double quotes each, with its escapes resolved. Up to two quotes may
    stand before the closing ones. -/
def multilineBasic (taken : List Char) (cs : List Char) : Option (String × List Char) :=
  match cs with
  | '"' :: '"' :: '"' :: '"' :: '"' :: rest => some (String.ofList ('"' :: '"' :: taken).reverse, rest)
  | '"' :: '"' :: '"' :: '"' :: rest => some (String.ofList ('"' :: taken).reverse, rest)
  | '"' :: '"' :: '"' :: rest => some (String.ofList taken.reverse, rest)
  | '"' :: rest => multilineBasic ('"' :: taken) rest
  | '\\' :: rest =>
    match _h : continuation? rest with
    | some rest' => multilineBasic taken rest'
    | none =>
      match _h : escape rest with
      | some (c, rest') => multilineBasic (c :: taken) rest'
      | none => none
  | '\n' :: rest | '\r' :: '\n' :: rest => multilineBasic ('\n' :: taken) rest
  | c :: rest => if isBasicChar c then multilineBasic (c :: taken) rest else none
  | [] => none
termination_by cs.length
decreasing_by
  all_goals simp only [List.length_cons]
  · omega
  · have := continuation_length _h
    omega
  · have := escape_length _h
    omega
  all_goals omega

/-- The rest of a text in three single quotes each. Up to two quotes may stand before the closing
    ones. -/
def multilineLiteral (taken : List Char) : List Char → Option (String × List Char)
  | '\x27' :: '\x27' :: '\x27' :: '\x27' :: '\x27' :: rest =>
    some (String.ofList ('\x27' :: '\x27' :: taken).reverse, rest)
  | '\x27' :: '\x27' :: '\x27' :: '\x27' :: rest =>
    some (String.ofList ('\x27' :: taken).reverse, rest)
  | '\x27' :: '\x27' :: '\x27' :: rest => some (String.ofList taken.reverse, rest)
  | '\x27' :: rest => multilineLiteral ('\x27' :: taken) rest
  | '\n' :: rest | '\r' :: '\n' :: rest => multilineLiteral ('\n' :: taken) rest
  | c :: rest => if isLiteralChar c then multilineLiteral (c :: taken) rest else none
  | [] => none

/-- The text after opening quotes of more than one line, where a line end right after them is not part
    of the text. -/
def dropNewline (cs : List Char) : List Char :=
  (newline? cs).getD cs

/-- A text on one line. -/
def shortText : Reader String
  | '"' :: rest => basicText [] rest
  | '\x27' :: rest => literalText rest
  | _ => none

/-- A text. -/
def text : Reader String
  | '"' :: '"' :: '"' :: rest => multilineBasic [] (dropNewline rest)
  | '\x27' :: '\x27' :: '\x27' :: rest => multilineLiteral [] (dropNewline rest)
  | cs => shortText cs

/-! ## Keys -/

/-- What a key without quotes is made of. -/
def isBareChar (c : Char) : Bool :=
  c.isAlphanum || c == '_' || c == '-'

/-- A key without dots. -/
def simpleKey (cs : List Char) : Option (String × List Char) :=
  match shortText cs with
  | some found => some found
  | none =>
    let bare := cs.takeWhile isBareChar
    if bare.isEmpty then none else some (String.ofList bare, cs.dropWhile isBareChar)

/-- A dotted key of at most `count` parts, with spaces around each part. -/
def keyParts : Nat → Reader (List String)
  | 0, _ => none
  | count + 1, cs => do
    let (part, rest) ← simpleKey (skipSpaces cs)
    match skipSpaces rest with
    | '.' :: rest => (keyParts count rest).map fun (parts, rest) => (part :: parts, rest)
    | rest => some ([part], rest)

/-- A dotted key. It has at most 79 parts. -/
def key : Reader (List String) :=
  keyParts 79

end StateDiagram.Toml.Read
