/-!
Bytes read as UTF-8. A run of bytes that starts a character and cannot be completed is read as one
replacement character, as is a byte that starts none.
-/

namespace OnePassSql.Text

/-- The character that stands for bytes which are not UTF-8. -/
def replacement : Char := '\uFFFD'

/-- How many bytes a character takes that starts with `lead`; `0` if none starts so. -/
def utf8Width (lead : UInt8) : Nat :=
  if lead < 0x80 then 1
  else if lead < 0xC2 then 0
  else if lead < 0xE0 then 2
  else if lead < 0xF0 then 3
  else if lead < 0xF5 then 4
  else 0

/-- A byte that continues a character. -/
def isTail (b : UInt8) : Bool :=
  decide (0x80 ≤ b) && decide (b < 0xC0)

/-- A byte that can follow `lead`: overlong forms, surrogates and code points past the last one
are ruled out here. -/
def isSecond (lead b : UInt8) : Bool :=
  if lead = 0xE0 then decide (0xA0 ≤ b) && decide (b < 0xC0)
  else if lead = 0xED then decide (0x80 ≤ b) && decide (b < 0xA0)
  else if lead = 0xF0 then decide (0x90 ≤ b) && decide (b < 0xC0)
  else if lead = 0xF4 then decide (0x80 ≤ b) && decide (b < 0x90)
  else isTail b

/-- The low six bits of a continuing byte. -/
def tailBits (b : UInt8) : Nat := b.toNat % 64

/-- The characters that the bytes spell, with a replacement for each malformed run. -/
def decodeUtf8 : List UInt8 → List Char
  | [] => []
  | a :: rest =>
    match utf8Width a with
    | 1 => Char.ofNat a.toNat :: decodeUtf8 rest
    | 2 =>
      match rest with
      | b :: rest₂ =>
        if isSecond a b then
          Char.ofNat (a.toNat % 32 * 64 + tailBits b) :: decodeUtf8 rest₂
        else replacement :: decodeUtf8 (b :: rest₂)
      | [] => [replacement]
    | 3 =>
      match rest with
      | b :: rest₂ =>
        if isSecond a b then
          match rest₂ with
          | c :: rest₃ =>
            if isTail c then
              Char.ofNat ((a.toNat % 16 * 64 + tailBits b) * 64 + tailBits c) :: decodeUtf8 rest₃
            else replacement :: decodeUtf8 (c :: rest₃)
          | [] => [replacement]
        else replacement :: decodeUtf8 (b :: rest₂)
      | [] => [replacement]
    | 4 =>
      match rest with
      | b :: rest₂ =>
        if isSecond a b then
          match rest₂ with
          | c :: rest₃ =>
            if isTail c then
              match rest₃ with
              | d :: rest₄ =>
                if isTail d then
                  Char.ofNat (((a.toNat % 8 * 64 + tailBits b) * 64 + tailBits c) * 64 + tailBits d)
                    :: decodeUtf8 rest₄
                else replacement :: decodeUtf8 (d :: rest₄)
              | [] => [replacement]
            else replacement :: decodeUtf8 (c :: rest₃)
          | [] => [replacement]
        else replacement :: decodeUtf8 (b :: rest₂)
      | [] => [replacement]
    | _ => replacement :: decodeUtf8 rest

end OnePassSql.Text
