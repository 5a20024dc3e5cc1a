/-
Reading bytes as text.
-/
import SunbeamProxy.Core.Codec

namespace SunbeamProxy.Codec

def fromUtf8 (bytes : Bytes) : Option String := String.fromUTF8? bytes.toByteArray

theorem fromUtf8_utf8 (s : String) : fromUtf8 (utf8 s) = some s := by
  rw [fromUtf8, ← toByteArray_eq_utf8, String.fromUTF8?, dif_pos s.isValidUTF8]
  rfl

theorem utf8_of_fromUtf8 {bytes : Bytes} {s : String} (h : fromUtf8 bytes = some s) : utf8 s = bytes := by
  rw [fromUtf8, String.fromUTF8?] at h
  split_ifs at h with hvalid
  have hbytes : s.toByteArray = bytes.toByteArray := by rw [← Option.some.inj h, String.fromUTF8]
  rw [toByteArray_eq_utf8] at hbytes
  exact List.toByteArray_inj.1 hbytes

def secondByte (first second : UInt8) : Bool := if first = 0xE0 then 0xA0 ≤ second && second ≤ 0xBF
  else if first = 0xED then 0x80 ≤ second && second ≤ 0x9F
  else if 0xE1 ≤ first && first ≤ 0xEF then 0x80 ≤ second && second ≤ 0xBF
  else if first = 0xF0 then 0x90 ≤ second && second ≤ 0xBF
  else if 0xF1 ≤ first && first ≤ 0xF3 then 0x80 ≤ second && second ≤ 0xBF
  else if first = 0xF4 then 0x80 ≤ second && second ≤ 0x8F
  else false

def brokenLength : Bytes → ℕ
  | first :: second :: third :: _ =>
    if secondByte first second then if 0xF0 ≤ first && 0x80 ≤ third && third ≤ 0xBF then 3 else 2
    else 1
  | [first, second] => if secondByte first second then 2 else 1
  | _ => 1

def lossyChars : ℕ → Bytes → List Char
  | 0, _ => []
  | _ + 1, [] => []
  | fuel + 1, b :: bytes =>
    match (b :: bytes).toByteArray.utf8DecodeChar? 0 with
    | some c => c :: lossyChars fuel ((b :: bytes).drop c.utf8Size)
    | none => '�' :: lossyChars fuel ((b :: bytes).drop (brokenLength (b :: bytes)))

def fromUtf8Lossy (bytes : Bytes) : String := String.ofList (lossyChars bytes.length bytes)

end SunbeamProxy.Codec
