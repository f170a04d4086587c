/-!
# Reading bytes as text

UTF-8 read without ever failing: a sequence of bytes that no character has is
read as U+FFFD, one for each longest prefix that a character could begin with
(`decode`). The lines of a file may end in `\n`, `\r\n` or `\r`; all become `\n`
(`unifyLines`).
-/

namespace RepoOrbit.Text

/-- What stands for bytes that are no character. -/
def replacement : Char := '\ufffd'

/-- A character of which some bytes have been read: the bits so far, how many
bytes are missing, and the range the next one must lie in. -/
structure Partial where
  bits : Nat
  missing : Nat
  low : Nat
  high : Nat
  deriving DecidableEq, Repr

/-- What the first byte of a character says. -/
inductive FirstByte where
  | whole (c : Char)
  | more (p : Partial)
  | invalid
  deriving Repr

/-- Classify a first byte. The ranges leave out overlong forms, surrogates and
everything above U+10FFFF. -/
def firstByte (b : UInt8) : FirstByte :=
  let n := b.toNat
  if n < 0x80 then .whole (Char.ofNat n)
  else if n < 0xC2 then .invalid
  else if n < 0xE0 then .more ⟨n - 0xC0, 1, 0x80, 0xBF⟩
  else if n = 0xE0 then .more ⟨0, 2, 0xA0, 0xBF⟩
  else if n = 0xED then .more ⟨0xD, 2, 0x80, 0x9F⟩
  else if n < 0xF0 then .more ⟨n - 0xE0, 2, 0x80, 0xBF⟩
  else if n = 0xF0 then .more ⟨0, 3, 0x90, 0xBF⟩
  else if n < 0xF4 then .more ⟨n - 0xF0, 3, 0x80, 0xBF⟩
  else if n = 0xF4 then .more ⟨4, 3, 0x80, 0x8F⟩
  else .invalid

/-- Read bytes, the character begun before them included. -/
def decodeFrom : Option Partial → List UInt8 → List Char
  | none, [] => []
  | some _, [] => [replacement]
  | none, b :: rest =>
    match firstByte b with
    | .whole c => c :: decodeFrom none rest
    | .more p => decodeFrom (some p) rest
    | .invalid => replacement :: decodeFrom none rest
  | some p, b :: rest =>
    if p.low ≤ b.toNat ∧ b.toNat ≤ p.high then
      let bits := p.bits * 64 + (b.toNat - 0x80)
      if p.missing ≤ 1 then Char.ofNat bits :: decodeFrom none rest
      else decodeFrom (some ⟨bits, p.missing - 1, 0x80, 0xBF⟩) rest
    else
      replacement ::
        match firstByte b with
        | .whole c => c :: decodeFrom none rest
        | .more q => decodeFrom (some q) rest
        | .invalid => replacement :: decodeFrom none rest

/-- Read bytes as UTF-8. -/
def decode (bytes : List UInt8) : List Char := decodeFrom none bytes

/-- End every line in `\n`; `afterReturn` says whether the character before was
a `\r`. -/
def unifyLinesFrom : Bool → List Char → List Char
  | _, [] => []
  | afterReturn, c :: rest =>
    if c = '\r' then '\n' :: unifyLinesFrom true rest
    else if c = '\n' ∧ afterReturn then unifyLinesFrom false rest
    else c :: unifyLinesFrom false rest

/-- End every line in `\n`. -/
def unifyLines (text : List Char) : List Char := unifyLinesFrom false text

/-- Read the bytes of a text file. -/
def ofFile (bytes : List UInt8) : String := String.ofList (unifyLines (decode bytes))

end RepoOrbit.Text
