import ArmOd.Qt.Decimal

/-!
# JSON texts

The JSON functions of the common library (`qt-json/json.cpp`): `serialize` writes a `QVariant`,
`parse` reads one. The parser goes through the text with an index; here it carries the rest of the
text from the index on, which is all it ever looks at. Its functions call each other, so they count
down: `none` says that the count ran out or that a character behind the end was read.

The bytes `serialize` builds are given by the text they are the UTF-8 of.
-/

namespace ArmOd.Json

/-- The kinds of `QVariant` that `parse` builds, and the hash besides. The entries of a map are
ordered by their keys, the ones of a hash stand in the order its iterator gives. -/
inductive QVariant where
  | invalid
  | bool (b : Bool)
  | longLong (i : Int)
  | uLongLong (n : Nat)
  | double (x : Double)
  | string (s : Text)
  | list (items : List QVariant)
  | map (entries : List (Text × QVariant))
  | hash (entries : List (Text × QVariant))

/-- `toString` of what `parseString` returns. -/
def QVariant.toString : QVariant → Text
  | .string s => s
  | _ => []

/-- The texts of doubles: `QByteArray::number( x, 'g', 20 )` and `QString::toDouble`. -/
structure Doubles where
  number : Double → Text
  toDouble : Text → Double

/-! ### Writing -/

/-- `str.replace( c, with )` for a text of one character. -/
def replace (c : Char) (by' : Text) (str : Text) : Text :=
  str.flatMap fun x => if x = c then by' else [x]

def sanitizeString (str : Text) : Text :=
  let str := replace '\\' ['\\', '\\'] str
  let str := replace '\"' ['\\', '\"'] str
  let str := replace '\x08' ['\\', 'b'] str
  let str := replace '\x0c' ['\\', 'f'] str
  let str := replace '\n' ['\\', 'n'] str
  let str := replace '\r' ['\\', 'r'] str
  let str := replace '\t' ['\\', 't'] str
  '\"' :: (str ++ ['\"'])

/-- The separator stands in front of every piece behind a result that is not empty. -/
def join (list : List Text) (sep : Text) : Text :=
  list.foldl (fun res i => (if res ≠ [] then res ++ sep else res) ++ i) []

section

variable (doubles : Doubles)

/-- A double: the text says that it is one by a point or an exponent. -/
def serializeDouble (x : Double) : Text :=
  let str := doubles.number x
  if '.' ∉ str ∧ 'e' ∉ str then str ++ ['.', '0'] else str

mutual

def serialize : QVariant → Text
  | .invalid => ['n', 'u', 'l', 'l']
  | .bool b => if b then ['t', 'r', 'u', 'e'] else ['f', 'a', 'l', 's', 'e']
  | .longLong i => Text.number i
  | .uLongLong n => Nat.toDigits 10 n
  | .double x => serializeDouble doubles x
  | .string s => sanitizeString s
  | .list items => ['[', ' '] ++ join (serializeItems items) [',', ' '] ++ [' ', ']']
  | .map entries => ['{', ' '] ++ join (serializePairs entries) [',', ' '] ++ [' ', '}']
  | .hash entries => ['{', ' '] ++ join (serializePairs entries) [',', ' '] ++ [' ', '}']

def serializeItems : List QVariant → List Text
  | [] => []
  | v :: rest => serialize v :: serializeItems rest

def serializePairs : List (Text × QVariant) → List Text
  | [] => []
  | (key, v) :: rest =>
    (sanitizeString key ++ [' ', ':', ' '] ++ serialize v) :: serializePairs rest

end

end

/-! ### Tokens -/

inductive JsonToken where
  | none
  | curlyOpen
  | curlyClose
  | squaredOpen
  | squaredClose
  | colon
  | comma
  | string
  | number
  | true
  | false
  | null
  deriving DecidableEq

def isWhitespace (c : Char) : Bool := [' ', '\t', '\n', '\r'].contains c

def eatWhitespace (json : Text) : Text := json.dropWhile isWhitespace

/-- The token that a character is by itself. -/
def tokenOf (c : Char) : Option JsonToken :=
  if c = '{' then some .curlyOpen
  else if c = '}' then some .curlyClose
  else if c = '[' then some .squaredOpen
  else if c = ']' then some .squaredClose
  else if c = ',' then some .comma
  else if c = '\"' then some .string
  else if ['0', '1', '2', '3', '4', '5', '6', '7', '8', '9', '-'].contains c then some .number
  else if c = ':' then some .colon
  else Option.none

/-- The next token and the text behind it. What is no token stays where it is. -/
def nextToken (json : Text) : JsonToken × Text :=
  let json := eatWhitespace json
  match json with
  | [] => (.none, [])
  | c :: rest =>
    match tokenOf c with
    | some token => (token, rest)
    | Option.none =>
      if ['t', 'r', 'u', 'e'].isPrefixOf json then (.true, json.drop 4)
      else if ['f', 'a', 'l', 's', 'e'].isPrefixOf json then (.false, json.drop 5)
      else if ['n', 'u', 'l', 'l'].isPrefixOf json then (.null, json.drop 4)
      else (.none, json)

def lookAhead (json : Text) : JsonToken := (nextToken json).1

/-! ### Reading -/

/-- What a parser function returns: the value, the text from the index on, and `success`. -/
structure Outcome where
  value : QVariant
  rest : Text
  success : Bool

/-- `toInt( 0, 16 )` of a text of four characters, zero where it is no number. -/
def toIntHex (text : Text) : Int :=
  let text := (text.dropWhile Text.isSpace).rdropWhile Text.isSpace
  let digits := if text.head? = some '-' ∨ text.head? = some '+' then text.tail else text
  let digits := if digits.take 2 = ['0', 'x'] ∨ digits.take 2 = ['0', 'X'] then digits.drop 2
    else digits
  let isHex := fun c : Char =>
    c.isDigit || decide ('a' ≤ c ∧ c ≤ 'f') || decide ('A' ≤ c ∧ c ≤ 'F')
  let value := digits.foldl (fun n c => n * 16 +
    (if c.isDigit then c.toNat - 48 else if 'a' ≤ c then c.toNat - 87 else c.toNat - 55)) 0
  if digits ≠ [] ∧ digits.all isHex then (if text.head? = some '-' then -Int.ofNat value else value)
  else 0

/-- `QChar( symbol )`. A surrogate is shown as a replacement character, also where the escape next to
it makes a pair of the two. -/
def QChar (symbol : Int) : Char :=
  let n := (symbol % 2 ^ 16).toNat
  if n.isValidChar then Char.ofNat n else '\uFFFD'

/-- The character behind a backslash; an unknown one gives nothing. -/
def unescape (c : Char) : Text :=
  if c = '\"' then ['\"']
  else if c = '\\' then ['\\']
  else if c = '/' then ['/']
  else if c = 'b' then ['\x08']
  else if c = 'f' then ['\x0c']
  else if c = 'n' then ['\n']
  else if c = 'r' then ['\r']
  else if c = 't' then ['\t']
  else []

def Outcome.failed (value : QVariant) (rest : Text) : Outcome := ⟨value, rest, false⟩

/-- The loop of `parseString`, behind the opening quotation mark. -/
def stringLoop (s : Text) : Text → Outcome
  | [] => .failed .invalid []
  | c :: rest =>
    if c = '\"' then ⟨.string s, rest, true⟩
    else if c = '\\' then
      match rest with
      | [] => .failed .invalid []
      | e :: rest =>
        if e = 'u' then
          match rest with
          | a :: b :: c :: d :: rest => stringLoop (s ++ [QChar (toIntHex [a, b, c, d])]) rest
          | _ => .failed .invalid rest
        else stringLoop (s ++ unescape e) rest
    else stringLoop (s ++ [c]) rest

/-- The first character is passed whatever it is. -/
def parseString (json : Text) : Option Outcome :=
  match eatWhitespace json with
  | [] => Option.none
  | _ :: rest => some (stringLoop [] rest)

def isNumberChar (c : Char) : Bool :=
  ['0', '1', '2', '3', '4', '5', '6', '7', '8', '9', '+', '-', '.', 'e', 'E'].contains c

/-- `toULongLong` of a text that does not start with a sign or a blank. -/
def toULongLong (text : Text) : Nat :=
  if text ≠ [] ∧ text.all Char.isDigit ∧ Nat.ofDigitChars 10 text 0 < 2 ^ 64 then
    Nat.ofDigitChars 10 text 0
  else 0

/-- `toLongLong` of a text that starts with a minus. -/
def toLongLong (text : Text) : Int :=
  let digits := text.tail
  if digits ≠ [] ∧ digits.all Char.isDigit ∧ Nat.ofDigitChars 10 digits 0 ≤ 2 ^ 63 then
    -(Nat.ofDigitChars 10 digits 0 : Int)
  else 0

section

variable (doubles : Doubles)

/-- The value of a number's text. -/
def numberValue (numberStr : Text) : QVariant :=
  if '.' ∈ numberStr then .double (doubles.toDouble numberStr)
  else if numberStr.head? = some '-' then .longLong (toLongLong numberStr)
  else .uLongLong (toULongLong numberStr)

def parseNumber (json : Text) : Outcome :=
  let json := eatWhitespace json
  ⟨numberValue doubles (json.takeWhile isNumberChar), json.dropWhile isNumberChar, true⟩

/-- `map[name] = value`, in a list of entries that is ordered by the keys. -/
def setEntry (name : Text) (value : QVariant) :
    List (Text × QVariant) → List (Text × QVariant)
  | [] => [(name, value)]
  | entry :: rest =>
    if name < entry.1 then (name, value) :: entry :: rest
    else if name = entry.1 then (name, value) :: rest
    else entry :: setEntry name value rest

mutual

/-- Every function is entered with `success` true. -/
def parseValue : Nat → Text → Option Outcome
  | 0, _ => Option.none
  | count + 1, json =>
    match lookAhead json with
    | .string => parseString json
    | .number => some (parseNumber doubles json)
    | .curlyOpen => objectLoop count [] (nextToken json).2
    | .squaredOpen => arrayLoop count [] (nextToken json).2
    | .true => some ⟨.bool true, (nextToken json).2, true⟩
    | .false => some ⟨.bool false, (nextToken json).2, true⟩
    | .null => some ⟨.invalid, (nextToken json).2, true⟩
    | _ => some (.failed .invalid json)

/-- The loop of `parseObject`. -/
def objectLoop : Nat → List (Text × QVariant) → Text → Option Outcome
  | 0, _, _ => Option.none
  | count + 1, map, json =>
    match lookAhead json with
    | .none => some (.failed (.map []) json)
    | .comma => objectLoop count map (nextToken json).2
    | .curlyClose => some ⟨.map map, (nextToken json).2, true⟩
    | _ =>
      match parseString json with
      | Option.none => Option.none
      | some name =>
        if ¬ name.success then some (.failed (.map []) name.rest)
        else
          let (token, behind) := nextToken name.rest
          if token ≠ .colon then some (.failed (.map []) behind)
          else
            match parseValue count behind with
            | Option.none => Option.none
            | some value =>
              if ¬ value.success then some (.failed (.map []) value.rest)
              else
                objectLoop count (setEntry name.value.toString value.value map) value.rest

/-- The loop of `parseArray`. -/
def arrayLoop : Nat → List QVariant → Text → Option Outcome
  | 0, _, _ => Option.none
  | count + 1, list, json =>
    match lookAhead json with
    | .none => some (.failed (.list []) json)
    | .comma => arrayLoop count list (nextToken json).2
    | .squaredClose => some ⟨.list list, (nextToken json).2, true⟩
    | _ =>
      match parseValue count json with
      | Option.none => Option.none
      | some value =>
        if ¬ value.success then some (.failed (.list []) value.rest)
        else arrayLoop count (list ++ [value.value]) value.rest

end

/-- `parse( json, success )`; a null string gives an empty value. -/
def parse : Option Text → Option Outcome
  | none => some ⟨.invalid, [], true⟩
  | some json => parseValue doubles (2 * json.length + 2) json

end

end ArmOd.Json
