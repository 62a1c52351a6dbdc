/-!
# UTF-8

Bytes are read as a sequence of scalar values and ill-formed stretches. A text
is well formed when no stretch is ill formed; a lossy reading puts a replacement
character in the place of every ill-formed stretch, which is as long as it can
still be the beginning of a scalar value.
-/

namespace ClassAtlas.Text

/-- A byte that continues a multi-byte sequence. -/
def isContinuation (b : UInt8) : Bool :=
  0x80 ≤ b && b ≤ 0xBF

/-- The six bits carried by a continuation byte. -/
def continuationBits (b : UInt8) : Nat :=
  b.toNat - 0x80

/-- Whether `second` may follow the lead byte of a three or four byte sequence: overlong
forms, surrogates and values beyond the last plane are excluded here. -/
def mayFollow (lead second : UInt8) : Bool :=
  if lead = 0xE0 then 0xA0 ≤ second && second ≤ 0xBF
  else if lead = 0xED then 0x80 ≤ second && second ≤ 0x9F
  else if lead = 0xF0 then 0x90 ≤ second && second ≤ 0xBF
  else if lead = 0xF4 then 0x80 ≤ second && second ≤ 0x8F
  else isContinuation second

/-- Lead byte of a two byte sequence. -/
def leadsTwo (b : UInt8) : Bool :=
  0xC2 ≤ b && b ≤ 0xDF

/-- Lead byte of a three byte sequence. -/
def leadsThree (b : UInt8) : Bool :=
  0xE0 ≤ b && b ≤ 0xEF

/-- Lead byte of a four byte sequence. -/
def leadsFour (b : UInt8) : Bool :=
  0xF0 ≤ b && b ≤ 0xF4

/-- The character of a two byte sequence. -/
def twoByteChar (a b : UInt8) : Char :=
  Char.ofNat ((a.toNat - 0xC0) * 64 + continuationBits b)

/-- The code of a three byte sequence, which may be a surrogate. -/
def threeByteCode (a b c : UInt8) : Nat :=
  ((a.toNat - 0xE0) * 64 + continuationBits b) * 64 + continuationBits c

/-- The character of a four byte sequence. -/
def fourByteChar (a b c d : UInt8) : Char :=
  Char.ofNat ((((a.toNat - 0xF0) * 64 + continuationBits b) * 64 + continuationBits c) * 64
    + continuationBits d)

/-- The scalar values of a byte string behind those already read, newest first; `none`
stands for an ill-formed stretch. -/
def scalarsBehind (read : List (Option Char)) : List UInt8 → List (Option Char)
  | [] => read.reverse
  | a :: rest =>
    if a < 0x80 then scalarsBehind (some (Char.ofNat a.toNat) :: read) rest
    else
      match rest with
      | [] => (none :: read).reverse
      | b :: rest₁ =>
        if leadsTwo a && isContinuation b then
          scalarsBehind (some (twoByteChar a b) :: read) rest₁
        else if leadsThree a && mayFollow a b then
          match rest₁ with
          | [] => (none :: read).reverse
          | c :: rest₂ =>
            if isContinuation c then
              scalarsBehind (some (Char.ofNat (threeByteCode a b c)) :: read) rest₂
            else scalarsBehind (none :: read) (c :: rest₂)
        else if leadsFour a && mayFollow a b then
          match rest₁ with
          | [] => (none :: read).reverse
          | c :: rest₂ =>
            if isContinuation c then
              match rest₂ with
              | [] => (none :: read).reverse
              | d :: rest₃ =>
                if isContinuation d then
                  scalarsBehind (some (fourByteChar a b c d) :: read) rest₃
                else scalarsBehind (none :: read) (d :: rest₃)
            else scalarsBehind (none :: read) (c :: rest₂)
        else scalarsBehind (none :: read) (b :: rest₁)

/-- The scalar values and ill-formed stretches of a byte string, in order. -/
def scalars (bytes : List UInt8) : List (Option Char) :=
  scalarsBehind [] bytes

/-- The text of a well-formed byte string. -/
def decodeUtf8? (bytes : List UInt8) : Option String :=
  let read := scalars bytes
  if read.all Option.isSome then some (String.ofList (read.filterMap id)) else none

/-- The text of any byte string, with U+FFFD for every ill-formed stretch. -/
def decodeUtf8Lossy (bytes : List UInt8) : String :=
  String.ofList ((scalars bytes).map (·.getD (Char.ofNat 0xFFFD)))

/-- The well-formed bytes of a text. -/
def encodeUtf8 (text : String) : List UInt8 :=
  text.toList.flatMap String.utf8EncodeChar

end ClassAtlas.Text
