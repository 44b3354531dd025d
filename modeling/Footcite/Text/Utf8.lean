import Footcite.Text.Basic

/-!
# UTF-8

`Utf8.decode?` reads bytes as characters and refuses what is no UTF-8: stray and missing continuation bytes, forms
that are longer than needed, surrogates, and numbers beyond the last character. `Utf8.encode` writes characters as
bytes.
-/

namespace Footcite.Utf8

/-- The low six bits of a continuation byte. -/
def continuation? (b : UInt8) : Option Nat := if 0x80 ≤ b && b < 0xc0 then some (b.toNat - 0x80) else none

/-- The character of a number that needs at least as many bytes as the least number given. -/
def character? (least n : Nat) : Option Char :=
  if least ≤ n && n.isValidChar then some (Char.ofNat n) else none

/-- The characters of bytes. -/
def decode? : List UInt8 → Option Text
  | [] => some []
  | a :: rest =>
    if a < 0x80 then (decode? rest).map (Char.ofNat a.toNat :: ·)
    else match rest with
      | [] => none
      | b :: rest =>
        if a < 0xe0 then do
          if a < 0xc0 then none
          let y ← continuation? b
          let c ← character? 0x80 ((a.toNat - 0xc0) * 0x40 + y)
          (decode? rest).map (c :: ·)
        else match rest with
          | [] => none
          | b' :: rest =>
            if a < 0xf0 then do
              let y ← continuation? b
              let z ← continuation? b'
              let c ← character? 0x800 (((a.toNat - 0xe0) * 0x40 + y) * 0x40 + z)
              (decode? rest).map (c :: ·)
            else match rest with
              | [] => none
              | b'' :: rest => do
                if 0xf8 ≤ a then none
                let y ← continuation? b
                let z ← continuation? b'
                let w ← continuation? b''
                let c ← character? 0x10000 ((((a.toNat - 0xf0) * 0x40 + y) * 0x40 + z) * 0x40 + w)
                (decode? rest).map (c :: ·)

/-- The bytes of characters. -/
def encode (t : Text) : List UInt8 := t.flatMap String.utf8EncodeChar

/-- The text with every line end written as a line feed. -/
def unifyLines : Text → Text
  | '\r' :: '\n' :: rest => '\n' :: unifyLines rest
  | '\r' :: rest => '\n' :: unifyLines rest
  | c :: rest => c :: unifyLines rest
  | [] => []

end Footcite.Utf8
