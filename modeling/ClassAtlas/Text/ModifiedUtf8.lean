import ClassAtlas.Text.Utf8

/-!
# Modified UTF-8

String constants of class files use a variant of UTF-8: the zero character takes
two bytes and a character beyond the basic plane is a pair of surrogates of three
bytes each. Plain UTF-8 is accepted as well, and wins when a constant is well
formed under both readings.
-/

namespace ClassAtlas.Text

/-- The character of a pair of surrogates. -/
def surrogatePairChar (high low : Nat) : Char :=
  Char.ofNat (0x10000 + (high - 0xD800) * 0x400 + (low - 0xDC00))

/-- The characters of modified UTF-8 behind those already read, newest first. -/
def modifiedBehind (read : List Char) : List UInt8 → Option (List Char)
  | [] => some read.reverse
  | a :: rest =>
    if a < 0x80 then
      if a = 0 then none else modifiedBehind (Char.ofNat a.toNat :: read) rest
    else
      match rest with
      | [] => none
      | b :: rest₁ =>
        if a = 0xC0 then
          if b = 0x80 then modifiedBehind (Char.ofNat 0 :: read) rest₁ else none
        else if leadsTwo a then
          if isContinuation b then modifiedBehind (twoByteChar a b :: read) rest₁ else none
        else if leadsThree a then
          match rest₁ with
          | [] => none
          | c :: rest₂ =>
            if !isContinuation c then none
            else if mayFollow a b then
              modifiedBehind (Char.ofNat (threeByteCode a b c) :: read) rest₂
            else if a = 0xED && 0xA0 ≤ b && b ≤ 0xAF then
              match rest₂ with
              | d :: e :: f :: rest₃ =>
                if d = 0xED && 0xB0 ≤ e && e ≤ 0xBF && isContinuation f then
                  modifiedBehind
                    (surrogatePairChar (threeByteCode a b c) (threeByteCode d e f) :: read) rest₃
                else none
              | _ => none
            else none
        else none

/-- The text of a byte string in modified UTF-8 proper. -/
def decodeModified? (bytes : List UInt8) : Option String :=
  (modifiedBehind [] bytes).map String.ofList

/-- The text of a string constant: plain UTF-8 as it stands, anything else as modified
UTF-8 from its first byte on. -/
def decodeConstant? (bytes : List UInt8) : Option String :=
  match decodeUtf8? bytes with
  | some text => some text
  | none => decodeModified? bytes

/-- The three bytes of a code below `0x10000`. -/
def threeBytes (code : Nat) : List UInt8 :=
  [UInt8.ofNat (0xE0 + code / 0x1000), UInt8.ofNat (0x80 + code / 0x40 % 0x40),
    UInt8.ofNat (0x80 + code % 0x40)]

/-- The modified form of one character. -/
def encodeModifiedChar (c : Char) : List UInt8 :=
  let n := c.toNat
  if n = 0 then [0xC0, 0x80]
  else if n < 0x80 then [UInt8.ofNat n]
  else if n < 0x800 then [UInt8.ofNat (0xC0 + n / 0x40), UInt8.ofNat (0x80 + n % 0x40)]
  else if n < 0x10000 then threeBytes n
  else
    threeBytes (0xD800 + (n - 0x10000) / 0x400) ++ threeBytes (0xDC00 + (n - 0x10000) % 0x400)

/-- The modified form of a text. -/
def encodeModified (text : String) : List UInt8 :=
  text.toList.flatMap encodeModifiedChar

end ClassAtlas.Text
