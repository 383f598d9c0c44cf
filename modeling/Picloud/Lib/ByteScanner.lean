import Picloud.Lib.Parsers
import Picloud.Lib.Utf8Cursor

/-!
# Scanners that know their position

The steps of a scanner whose state is a position in the bytes of a text, and the same steps on the
characters that are left. `Stands` relates the two: from a boundary each step on bytes does what the step
on characters does (`implements_skip`, `implements_taken`, `agrees_byte`), so a scanner that is put
together from them is one on characters as long as it starts and slices at boundaries.
-/

namespace Lib

open ParserOf

/-- A scanner whose state is its position. -/
abbrev PosParser := ParserOf ℕ Failure

/-- A scanner whose state is what is left of the text. -/
abbrev CharParser (ε : Type) := ParserOf (List Char) ε

/-! ## On bytes -/

namespace PosParser

variable (source : List Char)

/-- The position. -/
def position : PosParser ℕ := fun pos => .ok (pos, pos)

/-- The byte at the position, as a character; nothing at the end of the text. -/
def byte : PosParser (Option Char) := fun pos => .ok (byteAt source pos, pos)

/-- Go on by some bytes. -/
def move (k : ℕ) : PosParser Unit := fun pos => .ok ((), pos + k)

/-- The text from a position to this one. -/
def sliceBehind (start : ℕ) : PosParser (List Char) := fun pos =>
  match slice source start pos with
  | some text => .ok (text, pos)
  | none => .error .panic

/-- A loop that goes on by one byte as long as the bytes meet a condition. -/
def scan (fuel : ℕ) (p : Char → Bool) : PosParser Unit := fun pos =>
  match scanPos source p fuel pos with
  | some pos => .ok ((), pos)
  | none => .error .timeout

end PosParser

/-! ## On characters -/

namespace CharParser

variable {ε : Type}

/-- The first character that is left. -/
def front : CharParser ε (Option Char) := fun rest => .ok (rest.head?, rest)

/-- Go on by one character. -/
def next : CharParser ε Unit := fun rest => .ok ((), rest.tail)

/-- The characters that meet a condition, up to the first one that does not. -/
def taken (p : Char → Bool) : CharParser ε (List Char) := fun rest =>
  .ok (rest.takeWhile p, rest.dropWhile p)

/-- Go on over the characters that meet a condition. -/
def skip (p : Char → Bool) : CharParser ε Unit := fun rest => .ok ((), rest.dropWhile p)

/-- The scanner does not go back. -/
abbrev Forward {α : Type} (q : CharParser ε α) : Prop := Consumes List.length 0 q

theorem forward_front : Forward (front : CharParser ε (Option Char)) := by
  rintro rest a rest' h
  cases h
  exact Nat.le_refl _

theorem forward_next : Forward (next : CharParser ε Unit) := by
  rintro rest a rest' h
  cases h
  rw [List.length_tail]
  omega

theorem forward_taken (p : Char → Bool) : Forward (taken p : CharParser ε (List Char)) := by
  rintro rest a rest' h
  cases h
  exact (List.dropWhile_suffix p).length_le

theorem forward_skip (p : Char → Bool) : Forward (skip p : CharParser ε Unit) := by
  rintro rest a rest' h
  cases h
  exact (List.dropWhile_suffix p).length_le

end CharParser

/-! ## One does what the other does -/

section Implementation

variable {ε α β : Type} {wrap : ε → Failure} {source rest : List Char} {fuel n pos : ℕ}
  {p : Char → Bool}

/-- The runs agree: the same results at the same place, and errors that correspond. -/
abbrev AgreesAt (source : List Char) (wrap : ε → Failure) (r : Except Failure (α × ℕ))
    (r' : Except ε (α × List Char)) : Prop := Agrees (Stands source) wrap r r'

/-- The scanner on bytes does what the one on characters does, on less than so many characters. -/
abbrev ImplementsAt (source : List Char) (wrap : ε → Failure) (n : ℕ) (r : PosParser α)
    (q : CharParser ε α) : Prop := ImplementsBelow (Stands source) wrap List.length n r q

theorem scan_apply (hfuel : byteCount source < fuel) (hp : AsciiOnly p) (h : Stands source pos rest) :
    PosParser.scan source fuel p pos = .ok ((), pos + byteCount (rest.takeWhile p)) := by
  rw [PosParser.scan, scanPos_eq hp h hfuel]

theorem implements_skip (hfuel : byteCount source < fuel) (hp : AsciiOnly p) :
    ImplementsAt source wrap n (PosParser.scan source fuel p) (CharParser.skip p) := by
  intro pos rest h _
  rw [scan_apply hfuel hp h]
  exact .ok (h.takeWhile p)

theorem sliceBehind_apply {text : List Char} (h : Stands source pos (text ++ rest)) :
    PosParser.sliceBehind source pos (pos + byteCount text) = .ok (text, pos + byteCount text) := by
  rw [PosParser.sliceBehind, slice_of_stands h]

/-- What a loop has gone over is sliced at boundaries. -/
theorem implements_taken (hfuel : byteCount source < fuel) (hp : AsciiOnly p) :
    ImplementsAt source wrap n (do
      let start ← PosParser.position
      PosParser.scan source fuel p
      PosParser.sliceBehind source start) (CharParser.taken p) := by
  intro pos rest h _
  have hsplit : Stands source pos (rest.takeWhile p ++ rest.dropWhile p) := by
    rwa [List.takeWhile_append_dropWhile]
  have hposition : PosParser.position pos = .ok (pos, pos) := rfl
  rw [bind_of_ok hposition, bind_of_ok (scan_apply hfuel hp h), sliceBehind_apply hsplit]
  exact .ok hsplit.skip

/-- What comes behind a slice of what a loop has gone over. -/
theorem agrees_taken {f : List Char → PosParser β} {g : List Char → CharParser ε β}
    (hfuel : byteCount source < fuel) (hp : AsciiOnly p) (h : Stands source pos rest)
    (hf : ∀ text pos' rest', (CharParser.taken p : CharParser ε (List Char)) rest = .ok (text, rest') →
      Stands source pos' rest' → AgreesAt source wrap (f text pos') (g text rest')) :
    AgreesAt source wrap
      ((PosParser.position >>= fun start => PosParser.scan source fuel p >>= fun _ =>
        PosParser.sliceBehind source start >>= f) pos)
      ((CharParser.taken p >>= g) rest) := by
  have htaken : ImplementsAt source wrap (rest.length + 1) _ (CharParser.taken p) :=
    implements_taken hfuel hp
  have hagrees := (htaken pos rest h (Nat.lt_succ_self _)).bind hf
  simpa only [bind_assoc] using hagrees

/-- Going on from an ASCII character. -/
theorem agrees_next {c : Char} (h : Stands source pos (c :: rest)) (hc : c.toNat < 128) :
    AgreesAt source wrap (PosParser.move 1 pos) (CharParser.next (c :: rest)) := .ok (h.next hc)

/-- What depends on the byte at a boundary, and tells ASCII characters only. -/
theorem agrees_byte {f : Option Char → PosParser β} {g : Option Char → CharParser ε β}
    (h : Stands source pos rest) (hnil : rest = [] → AgreesAt source wrap (f none pos) (g none []))
    (hcons : ∀ c cs d, rest = c :: cs → (∀ x : Char, x.toNat < 128 → (d = x ↔ c = x)) →
      AgreesAt source wrap (f (some d) pos) (g (some c) (c :: cs))) :
    AgreesAt source wrap ((PosParser.byte source >>= f) pos) ((CharParser.front >>= g) rest) := by
  have hbyte : PosParser.byte source pos = .ok (byteAt source pos, pos) := rfl
  have hfront : (CharParser.front : CharParser ε (Option Char)) rest = .ok (rest.head?, rest) := rfl
  rw [bind_of_ok hbyte, bind_of_ok hfront]
  cases rest with
  | nil =>
    rw [byteAt_nil h]
    exact hnil rfl
  | cons c cs =>
    obtain ⟨d, hd, hsame⟩ := exists_byteAt h
    rw [hd]
    exact hcons c cs d rfl hsame

end Implementation

end Lib
