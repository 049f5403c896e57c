/-!
Numbers, dates and times of TOML: which texts are written well.
-/

namespace EndpointAtlas.Toml

/-- One or more digits, with single underscores between digits. -/
def isGrouped (isDigit : Char → Bool) (text : List Char) : Bool :=
  (text.splitOn '_').all fun group => !group.isEmpty && group.all isDigit

def isHexDigit (c : Char) : Bool := c.isDigit || ('a' ≤ c && c ≤ 'f') || ('A' ≤ c && c ≤ 'F')

def digitValue (c : Char) : Nat :=
  if c.isDigit then c.toNat - '0'.toNat
  else if 'a' ≤ c then c.toNat - 'a'.toNat + 10 else c.toNat - 'A'.toNat + 10

def numberOf (base : Nat) (digits : List Char) : Nat :=
  (digits.filter (· != '_')).foldl (fun number c => number * base + digitValue c) 0

/-- Digits without a zero in front of others. -/
def isDecimal (text : List Char) : Bool :=
  isGrouped Char.isDigit text && (text.head? != some '0' || text.length == 1)

/-- The text after its sign, and whether the sign is a minus. -/
def splitSign : List Char → Bool × List Char
  | '-' :: rest => (true, rest)
  | '+' :: rest => (false, rest)
  | text => (false, text)

/-- Whole numbers have 64 bits, one of them for the sign. -/
def integerLimit : Nat := 0x8000000000000000

def isInteger (text : List Char) : Bool :=
  match text with
  | '0' :: 'x' :: digits => isGrouped isHexDigit digits && numberOf 16 digits < integerLimit
  | '0' :: 'o' :: digits =>
      isGrouped (fun c => '0' ≤ c && c ≤ '7') digits && numberOf 8 digits < integerLimit
  | '0' :: 'b' :: digits =>
      isGrouped (fun c => c == '0' || c == '1') digits && numberOf 2 digits < integerLimit
  | _ =>
      let (negative, digits) := splitSign text
      isDecimal digits && numberOf 10 digits < integerLimit + (if negative then 1 else 0)

def isExponentMark (c : Char) : Bool := c == 'e' || c == 'E'

/-- A whole part with a fraction, an exponent or both. -/
def isFloat (text : List Char) : Bool :=
  let unsigned := (splitSign text).2
  let mantissa := unsigned.takeWhile (!isExponentMark ·)
  let whole := mantissa.takeWhile (· != '.')
  let exponentHolds := match unsigned.dropWhile (!isExponentMark ·) with
    | [] => true
    | _ :: digits => isGrouped Char.isDigit (splitSign digits).2
  let fractionHolds := match mantissa.dropWhile (· != '.') with
    | [] => mantissa.length < unsigned.length
    | _ :: digits => isGrouped Char.isDigit digits
  unsigned == "inf".toList || unsigned == "nan".toList ||
    (isDecimal whole && fractionHolds && exponentHolds)

def isLeapYear (year : Nat) : Bool := year % 4 == 0 && (year % 100 != 0 || year % 400 == 0)

def daysInMonth (year month : Nat) : Nat :=
  if month == 2 then (if isLeapYear year then 29 else 28)
  else if [4, 6, 9, 11].contains month then 30 else 31

def isDate (text : List Char) : Bool :=
  match text with
  | [a, b, c, d, '-', e, f, '-', g, h] =>
      let number := numberOf 10
      [a, b, c, d, e, f, g, h].all Char.isDigit && 1 ≤ number [e, f] && number [e, f] ≤ 12 &&
        1 ≤ number [g, h] && number [g, h] ≤ daysInMonth (number [a, b, c, d]) (number [e, f])
  | _ => false

def isTime (text : List Char) : Bool :=
  match text with
  | a :: b :: ':' :: c :: d :: ':' :: e :: f :: fraction =>
      [a, b, c, d, e, f].all Char.isDigit && numberOf 10 [a, b] ≤ 23 &&
        numberOf 10 [c, d] ≤ 59 && numberOf 10 [e, f] ≤ 60 &&
        match fraction with
        | [] => true
        | '.' :: digits => !digits.isEmpty && digits.all Char.isDigit
        | _ => false
  | _ => false

def isOffset (text : List Char) : Bool :=
  match text with
  | ['z'] | ['Z'] => true
  | [sign, a, b, ':', c, d] =>
      (sign == '+' || sign == '-') && [a, b, c, d].all Char.isDigit &&
        numberOf 10 [a, b] ≤ 23 && numberOf 10 [c, d] ≤ 59
  | _ => false

def isTimeWithOffset (text : List Char) : Bool :=
  let time := text.takeWhile fun c => c.isDigit || c == ':' || c == '.'
  let offset := text.drop time.length
  isTime time && (offset.isEmpty || isOffset offset)

def isDateTime (text : List Char) : Bool :=
  match text.drop 10 with
  | delimiter :: time =>
      isDate (text.take 10) && ['T', 't', ' '].contains delimiter && isTimeWithOffset time
  | [] => false

def isScalar (text : List Char) : Bool :=
  isInteger text || isFloat text || isDate text || isTime text || isDateTime text

end EndpointAtlas.Toml
