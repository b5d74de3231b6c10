import GuardedLogging.Text.Hex

/-!
# UTF-8

Text files hold UTF-8. A decoder that meets bytes which are no UTF-8 says what is wrong and where: the offset is that of the byte that should have started a character.
-/

namespace GuardedLogging

namespace Utf8

inductive Defect where
  | startByte
  | continuationByte
  | truncated
deriving DecidableEq, Repr

namespace Defect

def reason : Defect → String
  | startByte => "invalid start byte"
  | continuationByte => "invalid continuation byte"
  | truncated => "unexpected end of data"

end Defect

/-- Bytes that are no UTF-8: the defect, the offset where the character starts, and how many bytes were read for it. -/
structure DecodeError where
  defect : Defect
  offset : Nat
  length : Nat
deriving DecidableEq, Repr

/-- How a character starts: the bits in its first byte, the number of bytes that follow, and the range of the first of those. -/
structure Lead where
  bits : Nat
  following : Nat
  low : Nat
  high : Nat

/-- Overlong forms, surrogates and numbers past the last code point are excluded by the range of the second byte. -/
def lead? (byte : Nat) : Option Lead :=
  if byte < 0x80 then some ⟨byte, 0, 0x80, 0xBF⟩
  else if byte < 0xC2 then none
  else if byte < 0xE0 then some ⟨byte - 0xC0, 1, 0x80, 0xBF⟩
  else if byte < 0xF0 then
    some ⟨byte - 0xE0, 2, if byte == 0xE0 then 0xA0 else 0x80, if byte == 0xED then 0x9F else 0xBF⟩
  else if byte < 0xF5 then
    some ⟨byte - 0xF0, 3, if byte == 0xF0 then 0x90 else 0x80, if byte == 0xF4 then 0x8F else 0xBF⟩
  else none

/-- Where the decoder stands between two bytes. -/
inductive State where
  | start
  /-- Inside a character: its offset, the bytes read, the bytes still owed, the range of the next one, and the bits so far. -/
  | inside (offset length owed low high bits : Nat)

/-- Decodes the bytes from an offset on, in front of which `state` was reached. -/
def decodeFrom (offset : Nat) (state : State) : List UInt8 → Except DecodeError (List Char)
  | [] =>
    match state with
    | .start => .ok []
    | .inside start length _ _ _ _ => .error ⟨.truncated, start, length⟩
  | byte :: rest =>
    match state with
    | .start =>
      match lead? byte.toNat with
      | none => .error ⟨.startByte, offset, 1⟩
      | some lead =>
        if lead.following = 0 then do
          let text ← decodeFrom (offset + 1) .start rest
          return Char.ofNat lead.bits :: text
        else
          decodeFrom (offset + 1) (.inside offset 1 lead.following lead.low lead.high lead.bits) rest
    | .inside start length owed low high bits =>
      if low ≤ byte.toNat && byte.toNat ≤ high then
        let bits := bits * 64 + byte.toNat % 64
        if owed ≤ 1 then do
          let text ← decodeFrom (offset + 1) .start rest
          return Char.ofNat bits :: text
        else
          decodeFrom (offset + 1) (.inside start (length + 1) (owed - 1) 0x80 0xBF bits) rest
      else
        .error ⟨.continuationByte, start, length⟩

def decode (bytes : List UInt8) : Except DecodeError (List Char) :=
  decodeFrom 0 .start bytes

/-- The long form of a decoding error, which names the offending bytes. -/
def DecodeError.message (error : DecodeError) (bytes : List UInt8) : String :=
  if error.length = 1 then
    let byte := bytes.getD error.offset 0
    "'utf-8' codec can't decode byte 0x" ++ String.ofList (Hex.lower 2 byte.toNat) ++ " in position "
      ++ toString error.offset ++ ": " ++ error.defect.reason
  else
    "'utf-8' codec can't decode bytes in position " ++ toString error.offset ++ "-"
      ++ toString (error.offset + error.length - 1) ++ ": " ++ error.defect.reason

end Utf8

end GuardedLogging
