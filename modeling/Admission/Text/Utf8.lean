/-!
# UTF-8

Bytes are read as the longest valid beginnings of characters: a byte that cannot continue the
character begun before it ends that character as invalid and is looked at again as a first byte.
`decode?` refuses invalid bytes, `decodeLossy` puts the replacement character for each invalid part.
-/

namespace Admission.Utf8

/-- A character whose first bytes have been read. -/
structure Pending where
  /-- How many bytes are still missing. -/
  owed : Nat
  /-- The least the next byte may be. -/
  low : UInt8
  /-- The most the next byte may be. -/
  high : UInt8
  /-- The bits read so far. -/
  value : Nat

/-- What a first byte begins. -/
inductive Start where
  | char (c : Char)
  | pending (p : Pending)
  | invalid

/-- What a first byte begins: shortest forms only, no surrogates, nothing above U+10FFFF. -/
def start (b : UInt8) : Start :=
  if b < 0x80 then .char (Char.ofNat b.toNat)
  else if b < 0xC2 then .invalid
  else if b < 0xE0 then .pending ⟨1, 0x80, 0xBF, b.toNat - 0xC0⟩
  else if b = 0xE0 then .pending ⟨2, 0xA0, 0xBF, 0⟩
  else if b = 0xED then .pending ⟨2, 0x80, 0x9F, 13⟩
  else if b < 0xF0 then .pending ⟨2, 0x80, 0xBF, b.toNat - 0xE0⟩
  else if b = 0xF0 then .pending ⟨3, 0x90, 0xBF, 0⟩
  else if b < 0xF4 then .pending ⟨3, 0x80, 0xBF, b.toNat - 0xF0⟩
  else if b = 0xF4 then .pending ⟨3, 0x80, 0x8F, 4⟩
  else .invalid

/-- The characters of bytes, none for every invalid part. -/
def chars : Option Pending → List UInt8 → List (Option Char)
  | none, [] => []
  | some _, [] => [none]
  | none, b :: rest =>
    match start b with
    | .char c => some c :: chars none rest
    | .pending p => chars (some p) rest
    | .invalid => none :: chars none rest
  | some p, b :: rest =>
    if p.low ≤ b ∧ b ≤ p.high then
      let value := 64 * p.value + (b.toNat - 0x80)
      if p.owed = 1 then some (Char.ofNat value) :: chars none rest
      else chars (some ⟨p.owed - 1, 0x80, 0xBF, value⟩) rest
    else
      match start b with
      | .char c => none :: some c :: chars none rest
      | .pending p => none :: chars (some p) rest
      | .invalid => none :: none :: chars none rest

/-- The text of bytes, if they are valid. -/
def decode? (bytes : List UInt8) : Option String :=
  ((chars none bytes).mapM id).map String.ofList

/-- The text of bytes, with U+FFFD for every invalid part. -/
def decodeLossy (bytes : List UInt8) : String :=
  String.ofList ((chars none bytes).map (·.getD '\ufffd'))

/-- The bytes of a text. -/
def encode (text : String) : List UInt8 := text.toUTF8.toList

end Admission.Utf8
