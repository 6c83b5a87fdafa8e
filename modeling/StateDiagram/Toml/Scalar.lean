import StateDiagram.Toml.Text
import StateDiagram.Toml.Value

/-!
# `Toml.Scalar` — numbers, dates and other values without parts

## Contents

* `moment` — dates and times;
* `number`, `keyword` — numbers and truth values;
* `scalar` — any value without parts.
-/

namespace StateDiagram.Toml.Read

/-! ## Dates and times -/

/-- A number of exactly `count` digits. -/
def fixedDigits (count : Nat) : Reader Nat := fun cs =>
  let digits := cs.take count
  if digits.length = count ∧ digits.all Char.isDigit then some (ofDigits 10 digits, cs.drop count)
  else none

/-- A given character. -/
def expectChar (c : Char) : List Char → Option (List Char)
  | d :: rest => if c = d then some rest else none
  | [] => none

/-- A day of the calendar. -/
def date : Reader Date := fun cs => do
  let (year, cs) ← fixedDigits 4 cs
  let cs ← expectChar '-' cs
  let (month, cs) ← fixedDigits 2 cs
  let cs ← expectChar '-' cs
  let (day, cs) ← fixedDigits 2 cs
  let d : Date := ⟨year, month, day⟩
  if d.isValid then some (d, cs) else none

/-- The nanoseconds of a fraction of a second; digits beyond are cut off. -/
def fraction : List Char → Nat × List Char
  | '.' :: d :: rest =>
    if d.isDigit then
      let digits := (d :: rest).takeWhile Char.isDigit
      (ofDigits 10 ((digits ++ List.replicate 9 '0').take 9), (d :: rest).dropWhile Char.isDigit)
    else (0, '.' :: d :: rest)
  | cs => (0, cs)

/-- A time of day. -/
def time : Reader Time := fun cs => do
  let (hour, cs) ← fixedDigits 2 cs
  let cs ← expectChar ':' cs
  let (minute, cs) ← fixedDigits 2 cs
  let cs ← expectChar ':' cs
  let (second, cs) ← fixedDigits 2 cs
  let (nanosecond, cs) := fraction cs
  let t : Time := ⟨hour, minute, second, nanosecond⟩
  if t.isValid then some (t, cs) else none

/-- An offset in hours and minutes, its sign already taken. -/
def offsetMinutes (rule : OffsetRule) (west : Bool) : Reader Offset := fun cs => do
  let (hour, cs) ← fixedDigits 2 cs
  let cs ← expectChar ':' cs
  let (minute, cs) ← fixedDigits 2 cs
  if rule hour minute then some (.minutes west (60 * hour + minute), cs) else none

/-- An offset from universal time. -/
def offset (rule : OffsetRule) : Reader Offset
  | 'Z' :: rest | 'z' :: rest => some (.utc, rest)
  | '+' :: rest => offsetMinutes rule false rest
  | '-' :: rest => offsetMinutes rule true rest
  | _ => none

/-- A time of day after a day, with an offset if there is one. -/
def timeAfter (rule : OffsetRule) (d : Date) : Reader Moment := fun cs => do
  let (t, cs) ← time cs
  match offset rule cs with
  | some (o, cs) => some (.dateTime d t (some o), cs)
  | none => some (.dateTime d t none, cs)

/-- A day, a time of day, or both. -/
def moment (rule : OffsetRule) (cs : List Char) : Option (Moment × List Char) :=
  match date cs with
  | some (d, rest) =>
    let joined := match rest with
      | 'T' :: rest | 't' :: rest | ' ' :: rest => timeAfter rule d rest
      | _ => none
    some (joined.getD (.date d, rest))
  | none => (time cs).map fun (t, rest) => (.time t, rest)

/-! ## Numbers -/

/-- Further digits of a number, any of which may have an underscore in front. -/
def moreDigits (isDigit : Char → Bool) (taken : List Char) : List Char → List Char × List Char
  | '_' :: c :: rest =>
    if isDigit c then moreDigits isDigit (c :: taken) rest else (taken.reverse, '_' :: c :: rest)
  | c :: rest => if isDigit c then moreDigits isDigit (c :: taken) rest else (taken.reverse, c :: rest)
  | [] => (taken.reverse, [])

/-- The digits of a number, without the underscores between them. -/
def digits (isDigit : Char → Bool) : Reader (List Char)
  | c :: rest => if isDigit c then some (moreDigits isDigit [c] rest) else none
  | [] => none

/-- The digits of a decimal number, which have no zero in front. -/
def wholeDigits : Reader (List Char)
  | '0' :: rest => some (['0'], rest)
  | cs => digits Char.isDigit cs

/-- The sign of a number, if there is one; whether it is a minus. -/
def sign : List Char → Bool × List Char
  | '-' :: rest => (true, rest)
  | '+' :: rest => (false, rest)
  | cs => (false, cs)

/-- The exponent of a number, its letter already taken. -/
def exponent : Reader Int := fun cs =>
  let (negative, cs) := sign cs
  (digits Char.isDigit cs).map fun (ds, cs) =>
    (if negative then -(ofDigits 10 ds : Int) else ofDigits 10 ds, cs)

/-- A whole number if it fits 64 bits. -/
def boundedInt (n : Int) : Option Toml :=
  if Int64.minValue.toInt ≤ n ∧ n ≤ Int64.maxValue.toInt then some (.int n) else none

/-- A decimal as a double precision number. One too large is refused, one too small is not. -/
def boundedFloat (negative : Bool) (ds : List Char) (e : Int) : Option Toml :=
  match Binary64.ofDecimal negative (ofDigits 10 ds) e with
  | .infinite false => none
  | x => some (.float x)

/-- What follows the whole part of a decimal number: a fraction, an exponent, both or neither. -/
def decimalTail (negative : Bool) (whole : List Char) : Reader Toml
  | '.' :: rest => do
    let (frac, rest) ← digits Char.isDigit rest
    let (e, rest) ← match rest with
      | 'e' :: rest | 'E' :: rest => exponent rest
      | rest => some (0, rest)
    (boundedFloat negative (whole ++ frac) (e - frac.length)).map (·, rest)
  | 'e' :: rest | 'E' :: rest => do
    let (e, rest) ← exponent rest
    (boundedFloat negative whole e).map (·, rest)
  | rest =>
    let n : Int := ofDigits 10 whole
    (boundedInt (if negative then -n else n)).map (·, rest)

/-- A number after its sign. -/
def unsigned (negative : Bool) : Reader Toml
  | 'i' :: 'n' :: 'f' :: rest => some (.float (.infinite negative), rest)
  | 'n' :: 'a' :: 'n' :: rest => some (.float .nan, rest)
  | cs => do
    let (whole, rest) ← wholeDigits cs
    decimalTail negative whole rest

/-- A whole number in another base, its mark already taken. -/
def based (base : Nat) : Reader Toml := fun cs => do
  let isDigit c := (hexValue? c).any (· < base)
  let (ds, rest) ← digits isDigit cs
  (boundedInt (ofDigits base ds)).map (·, rest)

/-- A number. -/
def number : Reader Toml
  | '0' :: 'x' :: rest => based 16 rest
  | '0' :: 'o' :: rest => based 8 rest
  | '0' :: 'b' :: rest => based 2 rest
  | cs => unsigned (sign cs).1 (sign cs).2

/-! ## All values without parts -/

/-- A truth value. -/
def keyword : Reader Toml
  | 't' :: 'r' :: 'u' :: 'e' :: rest => some (.bool true, rest)
  | 'f' :: 'a' :: 'l' :: 's' :: 'e' :: rest => some (.bool false, rest)
  | _ => none

/-- A value without parts. What starts like a text is one; dates come before numbers. -/
def scalar (cs : List Char) : Option (Toml × List Char) :=
  match cs with
  | '"' :: _ | '\x27' :: _ => (text cs).map fun (s, rest) => (.str s, rest)
  | _ =>
    match keyword cs, moment .timeOfDay cs with
    | some found, _ => some found
    | none, some (m, rest) => some (.moment m, rest)
    | none, none => number cs

end StateDiagram.Toml.Read
