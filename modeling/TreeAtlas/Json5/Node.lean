import TreeAtlas.Decimal.Reading
import TreeAtlas.Json.Scanner

/-!
# Relaxed data texts as trees

The tree of a text in the relaxed notation, its strings and numbers as they were written. What a
string or a number stands for is found when it is read, so a text that is well formed may still
hold an unpaired surrogate or a number that is too large, and nobody notices unless it is read.
-/

namespace TreeAtlas.Json5

inductive Piece where
  | literal (c : Char)
  /-- A character after a backslash, and what it stands for. -/
  | escaped (source : Char) (value : Char)
  /-- The two digits of a code point. -/
  | code (digits : List Char)
  /-- The four digits of half a surrogate pair or of a whole character. -/
  | unit (digits : List Char)
  deriving DecidableEq, Repr

inductive Node where
  | null
  | boolean (b : Bool)
  | string (pieces : List Piece)
  | number (source : List Char)
  | array (items : List Node)
  | object (members : List (List Piece × Node))

inductive ValueError where
  | badNumber
  | tooLarge
  | badInteger
  | badHex
  | loneTrail
  | missingTrail
  | expectedTrail
  deriving DecidableEq, Repr

def ValueError.message : ValueError → String
  | .badNumber => "error parsing number"
  | .tooLarge => "error parsing number: too large"
  | .badInteger => "error parsing integer"
  | .badHex => "error parsing hex"
  | .loneTrail => "unexpected unicode trail surrogate"
  | .missingTrail => "missing unicode trail surrogate"
  | .expectedTrail => "expecting unicode trail surrogate"

/-! ### Strings -/

def Piece.source : Piece → List Char
  | .literal c => [c]
  | .escaped source _ => [source]
  | .code digits => digits
  | .unit digits => digits

/-- The value of hexadecimal digits that fit 32 bits. -/
def hex? (digits : List Char) : Option Nat :=
  if digits.isEmpty then none
  else (digits.mapM Json.hexValue?).bind fun ds =>
    let n := ds.foldl (fun n d => 16 * n + d) 0
    if n < UInt32.size then some n else none

/-- The characters of a string. The half of a pair is completed by whatever piece comes next. -/
def decode : List Piece → Except ValueError (List Char)
  | [] => .ok []
  | .literal c :: rest => return c :: (← decode rest)
  | .escaped _ c :: rest => return c :: (← decode rest)
  | .code digits :: rest =>
    match hex? digits with
    | none => .error .badHex
    | some n => return Char.ofNat n :: (← decode rest)
  | .unit digits :: rest =>
    match hex? digits with
    | none => .error .badHex
    | some n =>
      if Json.isTrailing n then .error .loneTrail
      else if Json.isLeading n then
        match rest with
        | [] => .error .missingTrail
        | next :: rest =>
          match hex? next.source with
          | none => .error .badHex
          | some m =>
            if Json.isTrailing m then return Json.pairedChar n m :: (← decode rest)
            else .error .expectedTrail
      else return Char.ofNat n :: (← decode rest)

def text (pieces : List Piece) : Except ValueError String :=
  (decode pieces).map String.ofList

/-! ### Numbers -/

/-- The digits after the mark of a hexadecimal number. -/
def hexDigits? : List Char → Option (List Char)
  | '0' :: c :: d :: ds => if c = 'x' ∨ c = 'X' then some (d :: ds) else none
  | _ => none

/-- Words for what is not finite, without a sign or with a minus. -/
def namedFloat? (source : List Char) : Option Float :=
  match String.ofList source with
  | "Infinity" => some (1.0 / 0.0)
  | "-Infinity" => some (-1.0 / 0.0)
  | "NaN" => some (0.0 / 0.0)
  | "-NaN" => some (0.0 / 0.0)
  | _ => none

def isWhole (source : List Char) : Bool :=
  !source.contains '.' && (namedFloat? source).isNone
    && ((hexDigits? source).isSome || !(source.contains 'e' || source.contains 'E'))

def hexNumber (digits : List Char) : Except ValueError Nat :=
  match hex? digits with
  | some n => .ok n
  | none => .error .badHex

/-- The floating point number that some source text, of whatever kind, stands for. -/
def floatOf (source : List Char) : Except ValueError Float :=
  match namedFloat? source, hexDigits? source with
  | some x, _ => .ok x
  | none, some digits => (hexNumber digits).map Float.ofNat
  | none, none =>
    match Decimal.Literal.ofChars? source with
    | none => .error .badNumber
    | some literal =>
      let x := literal.toDouble
      if x.isFinite then .ok x else .error .tooLarge

def integerOf (source : List Char) : Except ValueError Int :=
  match hexDigits? source with
  | some digits => (hexNumber digits).map Int.ofNat
  | none =>
    match (Decimal.integer? source).filter Decimal.fitsWord with
    | some i => .ok i
    | none => .error .badInteger

end TreeAtlas.Json5
