/-!
# NativeExtension.Text.Utf8

**Bytes and the text they spell.** File names, environment values and program
output are byte sequences that need not be text. `encode` writes characters as
bytes; `scan` reads bytes back, one character at a time, and marks every maximal
ill-formed part. Two readings come from it:

* `decode?` — the text, when every byte belongs to a character;
* `decodeLossy` — the text with U+FFFD in place of each ill-formed part, the form
  in which a byte string is shown to a person.

An ill-formed part is as long as possible: a lead byte with all the continuation
bytes that could still belong to it is one part, and the byte that breaks it off
starts afresh. That is why `scan` carries the half-read character along.
-/

namespace NativeExtension

/-- A sequence of bytes: a file name, an environment value, what a program prints. -/
abbrev Bytes := List UInt8

namespace Utf8

def encode (text : List Char) : Bytes :=
  text.flatMap String.utf8EncodeChar

/-- A character of which a lead byte and perhaps some continuation bytes were read. -/
structure Pending where
  bits : Nat
  /-- How many continuation bytes are missing after the next one. -/
  further : Nat
  /-- The least value that the next continuation byte may have. -/
  least : UInt8 := 0x80
  greatest : UInt8 := 0xBF
deriving DecidableEq, Repr

/-- What a byte says when it is met between two characters. -/
inductive Lead where
  | single (c : Char)
  | opens (pending : Pending)
  /-- No character starts with it. -/
  | stray
deriving DecidableEq, Repr

/-- The second byte of a character is narrowed where overlong forms, surrogates and
values above U+10FFFF would otherwise slip in. -/
def lead (b : UInt8) : Lead :=
  if b < 0x80 then .single (Char.ofNat b.toNat)
  else if b < 0xC2 then .stray
  else if b < 0xE0 then .opens { bits := b.toNat - 0xC0, further := 0 }
  else if b = 0xE0 then .opens { bits := 0, further := 1, least := 0xA0 }
  else if b = 0xED then .opens { bits := 0xD, further := 1, greatest := 0x9F }
  else if b < 0xF0 then .opens { bits := b.toNat - 0xE0, further := 1 }
  else if b = 0xF0 then .opens { bits := 0, further := 2, least := 0x90 }
  else if b < 0xF4 then .opens { bits := b.toNat - 0xF0, further := 2 }
  else if b = 0xF4 then .opens { bits := 4, further := 2, greatest := 0x8F }
  else .stray

/-- Reads a byte between two characters; `none` stands for an ill-formed part. -/
def start (b : UInt8) : List (Option Char) × Option Pending :=
  match lead b with
  | .single c => ([some c], none)
  | .opens pending => ([], some pending)
  | .stray => ([none], none)

/-- Reads one byte. A byte that cannot continue the pending character ends an
ill-formed part and is then read as the start of the next character. -/
def step : Option Pending → UInt8 → List (Option Char) × Option Pending
  | none, b => start b
  | some p, b =>
    if p.least ≤ b ∧ b ≤ p.greatest then
      let bits := p.bits * 64 + (b.toNat - 0x80)
      match p.further with
      | 0 => ([some (Char.ofNat bits)], none)
      | n + 1 => ([], some { bits := bits, further := n })
    else
      (none :: (start b).1, (start b).2)

/-- The characters and ill-formed parts of a byte sequence, in order. -/
def scan : Option Pending → Bytes → List (Option Char)
  | none, [] => []
  | some _, [] => [none]
  | state, b :: rest => (step state b).1 ++ scan (step state b).2 rest

/-- U+FFFD, which stands for an ill-formed part. -/
def replacement : Char := '\uFFFD'

/-- The text of `bytes` with each maximal ill-formed part replaced by U+FFFD. -/
def decodeLossy (bytes : Bytes) : List Char :=
  (scan none bytes).map (·.getD replacement)

/-- The text of `bytes`, when they are well-formed throughout. -/
def decode? (bytes : Bytes) : Option (List Char) :=
  (scan none bytes).mapM id

end Utf8

def utf8 (text : String) : Bytes :=
  Utf8.encode text.toList

/-- The text that `bytes` spell, ill-formed parts replaced by U+FFFD. -/
def shown (bytes : Bytes) : String :=
  String.ofList (Utf8.decodeLossy bytes)

/-- The text that `bytes` spell, if they spell one. -/
def text? (bytes : Bytes) : Option String :=
  (Utf8.decode? bytes).map String.ofList

end NativeExtension
