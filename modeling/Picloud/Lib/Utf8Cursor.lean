import Picloud.Lib.JsonLines
import Mathlib.Data.List.TakeWhile

/-!
# Byte positions in texts

A scanner that walks over the bytes of a text, one byte at a time, and slices the text at its positions.
`slice` is defined at the boundaries of characters only. `Stands` says that a position is the boundary in
front of a rest of the text. A loop that goes on as long as the bytes meet a condition ends at a boundary
again when the condition does not tell the bytes from 128 on apart (`scanPos_eq`), as with it bytes and
characters are scanned alike.
-/

namespace Lib

/-- How a scanner ends without a result. -/
inductive Failure where
  | panic
  | timeout
  | reason (text : String)
deriving DecidableEq

/-! ## Bytes and slices -/

/-- The bytes of a text. -/
def textBytes (cs : List Char) : Bytes := cs.flatMap String.utf8EncodeChar

/-- The length of a text in bytes. -/
def byteCount (cs : List Char) : ℕ := (textBytes cs).length

/-- The character with the code of a byte. -/
def byteChar (b : UInt8) : Char := Char.ofNat b.toNat

/-- The byte at a position, as a character. -/
def byteAt (source : List Char) (pos : ℕ) : Option Char := (textBytes source)[pos]?.map byteChar

/-- The text from a position on; nothing when the position is no boundary. -/
def sliceFrom : List Char → ℕ → Option (List Char)
  | cs, 0 => some cs
  | [], _ + 1 => none
  | c :: cs, pos + 1 => if c.utf8Size ≤ pos + 1 then sliceFrom cs (pos + 1 - c.utf8Size) else none

/-- The text up to a position; nothing when the position is no boundary. -/
def sliceTo : List Char → ℕ → Option (List Char)
  | _, 0 => some []
  | [], _ + 1 => none
  | c :: cs, pos + 1 =>
    if c.utf8Size ≤ pos + 1 then (sliceTo cs (pos + 1 - c.utf8Size)).map (c :: ·) else none

/-- The text between two positions; nothing unless they are boundaries in this order. -/
def slice (source : List Char) (start stop : ℕ) : Option (List Char) :=
  if start ≤ stop then (sliceFrom source start).bind (sliceTo · (stop - start)) else none

/-- Go on as long as the bytes meet the condition; nothing when the fuel does not last. -/
def scanPos (source : List Char) (p : Char → Bool) : ℕ → ℕ → Option ℕ
  | 0, _ => none
  | fuel + 1, pos =>
    match byteAt source pos with
    | some c => if p c then scanPos source p fuel (pos + 1) else some pos
    | none => some pos

/-! ## Counting bytes -/

theorem utf8_eq_textBytes (s : String) : utf8 s = textBytes s.toList := utf8_eq_flatMap s

@[simp] theorem byteCount_nil : byteCount [] = 0 := rfl

theorem textBytes_cons (c : Char) (cs : List Char) :
    textBytes (c :: cs) = String.utf8EncodeChar c ++ textBytes cs := List.flatMap_cons

theorem textBytes_append (cs cs' : List Char) : textBytes (cs ++ cs') = textBytes cs ++ textBytes cs' :=
  List.flatMap_append

theorem byteCount_cons (c : Char) (cs : List Char) : byteCount (c :: cs) = c.utf8Size + byteCount cs := by
  rw [byteCount, textBytes_cons, List.length_append, String.length_utf8EncodeChar, byteCount]

theorem byteCount_append (cs cs' : List Char) : byteCount (cs ++ cs') = byteCount cs + byteCount cs' := by
  rw [byteCount, textBytes_append, List.length_append, byteCount, byteCount]

/-- A character takes one byte at least. -/
theorem length_le_byteCount (cs : List Char) : cs.length ≤ byteCount cs := by
  induction cs with
  | nil => exact le_rfl
  | cons c cs ih =>
    have hc := c.utf8Size_pos
    rw [byteCount_cons, List.length_cons]
    omega

theorem utf8Size_of_ascii {c : Char} (hc : c.toNat < 128) : c.utf8Size = 1 := by
  rw [← String.length_utf8EncodeChar]
  have hval : c.val.toNat < 128 := hc
  fun_cases String.utf8EncodeChar c
  · rfl
  all_goals omega

/-- An ASCII text has as many bytes as characters. -/
theorem byteCount_of_ascii {cs : List Char} (h : ∀ c ∈ cs, c.toNat < 128) : byteCount cs = cs.length := by
  induction cs with
  | nil => rfl
  | cons c cs ih =>
    rw [byteCount_cons, utf8Size_of_ascii (h c List.mem_cons_self),
      ih fun d hd => h d (List.mem_cons_of_mem c hd), List.length_cons]
    omega

/-! ## Conditions on bytes -/

/-- The condition does not tell the characters from 128 on apart. -/
def AsciiOnly (p : Char → Bool) : Prop := ∀ c c' : Char, 128 ≤ c.toNat → 128 ≤ c'.toNat → p c = p c'

/-- What is true of no character from 128 on. -/
theorem asciiOnly_of_false {p : Char → Bool} (h : ∀ c : Char, 128 ≤ c.toNat → p c = false) :
    AsciiOnly p := fun c c' hc hc' => by rw [h c hc, h c' hc']

theorem AsciiOnly.not {p : Char → Bool} (h : AsciiOnly p) : AsciiOnly fun c => !p c :=
  fun c c' hc hc' => congrArg (!·) (h c c' hc hc')

theorem AsciiOnly.and {p q : Char → Bool} (hp : AsciiOnly p) (hq : AsciiOnly q) :
    AsciiOnly fun c => p c && q c :=
  fun c c' hc hc' => congrArg₂ (· && ·) (hp c c' hc hc') (hq c c' hc hc')

theorem AsciiOnly.or {p q : Char → Bool} (hp : AsciiOnly p) (hq : AsciiOnly q) :
    AsciiOnly fun c => p c || q c :=
  fun c c' hc hc' => congrArg₂ (· || ·) (hp c c' hc hc') (hq c c' hc hc')

theorem asciiOnly_eq {d : Char} (hd : d.toNat < 128) : AsciiOnly fun c => c = d := by
  refine asciiOnly_of_false fun c hc => decide_eq_false ?_
  rintro rfl
  omega

theorem asciiOnly_ne {d : Char} (hd : d.toNat < 128) : AsciiOnly fun c => c ≠ d := by
  simpa only [decide_not] using (asciiOnly_eq hd).not

theorem toNat_byteChar (b : UInt8) : (byteChar b).toNat = b.toNat := by
  have hb := b.toNat_lt
  have hvalid : b.toNat.isValidChar := Or.inl (by omega)
  rw [byteChar, Char.ofNat, dif_pos hvalid]
  rfl

/-- The bytes of a character are the character itself, or all from 128 on as it is. -/
theorem byteChar_of_mem {c : Char} {b : UInt8} (h : b ∈ String.utf8EncodeChar c) :
    byteChar b = c ∨ 128 ≤ (byteChar b).toNat ∧ 128 ≤ c.toNat := by
  rw [toNat_byteChar]
  have hval : c.toNat = c.val.toNat := rfl
  revert h
  fun_cases String.utf8EncodeChar c
  · intro h
    left
    apply Char.toNat_inj.mp
    rw [List.mem_singleton] at h
    rw [toNat_byteChar, h, hval]
    simp only [UInt8.toNat_ofNat']
    omega
  all_goals
    intro h
    right
    simp only [List.mem_cons, List.not_mem_nil, or_false, ← UInt8.toNat_inj, UInt8.toNat_ofNat'] at h
    omega

theorem AsciiOnly.byteChar {p : Char → Bool} (hp : AsciiOnly p) {c : Char} {b : UInt8}
    (h : b ∈ String.utf8EncodeChar c) : p (byteChar b) = p c := by
  rcases byteChar_of_mem h with heq | ⟨hb, hc⟩
  · rw [heq]
  · exact hp _ _ hb hc

/-- Bytes and characters are scanned alike. -/
theorem takeWhile_textBytes {p : Char → Bool} (hp : AsciiOnly p) (cs : List Char) :
    (textBytes cs).takeWhile (fun b => p (byteChar b)) = textBytes (cs.takeWhile p) := by
  induction cs with
  | nil => rfl
  | cons c cs ih =>
    rw [textBytes_cons]
    by_cases hc : p c
    · rw [List.takeWhile_append_of_pos fun b hb => (hp.byteChar hb).trans hc, ih,
        List.takeWhile_cons_of_pos hc, textBytes_cons]
    · obtain ⟨b, bs, hbs⟩ := List.exists_cons_of_ne_nil (String.utf8EncodeChar_ne_nil (c := c))
      have hb : p (byteChar b) = p c := hp.byteChar (hbs ▸ List.mem_cons_self)
      rw [hbs, List.cons_append, List.takeWhile_cons, List.takeWhile_cons_of_neg hc, hb, if_neg hc]
      rfl

/-- An ASCII character stands as often in a text as its byte in the bytes. -/
theorem countP_textBytes {d : Char} (hd : d.toNat < 128) (cs : List Char) :
    (textBytes cs).countP (fun b => byteChar b = d) = cs.count d := by
  induction cs with
  | nil => rfl
  | cons c cs ih =>
    have hsame : ∀ b ∈ String.utf8EncodeChar c, decide (byteChar b = d) = decide (c = d) :=
      fun b hb => (asciiOnly_eq hd).byteChar hb
    rw [textBytes_cons, List.countP_append, ih, List.count_cons]
    by_cases hc : c = d
    · subst hc
      have hall : ∀ b ∈ String.utf8EncodeChar c, decide (byteChar b = c) = true :=
        fun b hb => (hsame b hb).trans (decide_eq_true rfl)
      rw [List.countP_eq_length.mpr hall, String.length_utf8EncodeChar, utf8Size_of_ascii hd]
      simp [Nat.add_comm]
    · have hnone : ∀ b ∈ String.utf8EncodeChar c, ¬ decide (byteChar b = d) = true := fun b hb => by
        rw [hsame b hb]
        simpa using hc
      rw [List.countP_eq_zero.mpr hnone]
      simp [hc]

/-! ## Boundaries -/

/-- The position is the boundary in front of the rest of the source. -/
def Stands (source : List Char) (pos : ℕ) (rest : List Char) : Prop :=
  ∃ text, source = text ++ rest ∧ pos = byteCount text

variable {source rest text : List Char} {pos : ℕ} {c : Char} {p : Char → Bool}

theorem stands_zero (source : List Char) : Stands source 0 source := ⟨[], rfl, rfl⟩

/-- Going on over some text. -/
theorem Stands.skip (h : Stands source pos (text ++ rest)) :
    Stands source (pos + byteCount text) rest := by
  obtain ⟨before, hsource, hpos⟩ := h
  exact ⟨before ++ text, by rw [hsource, List.append_assoc], by rw [hpos, byteCount_append]⟩

/-- Going on over an ASCII character. -/
theorem Stands.next (h : Stands source pos (c :: rest)) (hc : c.toNat < 128) :
    Stands source (pos + 1) rest := by
  have happend : Stands source pos ([c] ++ rest) := h
  have hskip := happend.skip
  rwa [byteCount_of_ascii (by simpa using hc)] at hskip

theorem Stands.add_byteCount (h : Stands source pos rest) : pos + byteCount rest = byteCount source := by
  obtain ⟨before, hsource, hpos⟩ := h
  rw [hsource, byteCount_append, hpos]

theorem drop_textBytes (h : Stands source pos rest) : (textBytes source).drop pos = textBytes rest := by
  obtain ⟨before, rfl, rfl⟩ := h
  rw [textBytes_append, byteCount, List.drop_left]

theorem sliceFrom_byteCount (text rest : List Char) :
    sliceFrom (text ++ rest) (byteCount text) = some rest := by
  induction text with
  | nil => cases rest <;> rfl
  | cons c cs ih =>
    have hc := c.utf8Size_pos
    rw [byteCount_cons]
    obtain ⟨pos, hpos⟩ := Nat.exists_eq_add_one.mpr (Nat.add_pos_left hc (byteCount cs))
    rw [hpos, List.cons_append, sliceFrom, if_pos (by omega), ← hpos, Nat.add_sub_cancel_left, ih]

theorem exists_of_sliceFrom (h : sliceFrom source pos = some rest) : Stands source pos rest := by
  induction source generalizing pos with
  | nil =>
    cases pos with
    | zero =>
      cases h
      exact stands_zero _
    | succ pos => cases h
  | cons c cs ih =>
    cases pos with
    | zero =>
      cases h
      exact stands_zero _
    | succ pos =>
      rw [sliceFrom] at h
      split_ifs at h with hc
      obtain ⟨text, rfl, hpos⟩ := ih h
      exact ⟨c :: text, rfl, by rw [byteCount_cons]; omega⟩

/-- The slices are those at boundaries. -/
theorem sliceFrom_eq_some_iff : sliceFrom source pos = some rest ↔ Stands source pos rest := by
  constructor
  · exact exists_of_sliceFrom
  · rintro ⟨text, rfl, rfl⟩
    exact sliceFrom_byteCount text rest

theorem sliceTo_byteCount (text rest : List Char) :
    sliceTo (text ++ rest) (byteCount text) = some text := by
  induction text with
  | nil => cases rest <;> rfl
  | cons c cs ih =>
    have hc := c.utf8Size_pos
    rw [byteCount_cons]
    obtain ⟨pos, hpos⟩ := Nat.exists_eq_add_one.mpr (Nat.add_pos_left hc (byteCount cs))
    rw [hpos, List.cons_append, sliceTo, if_pos (by omega), ← hpos, Nat.add_sub_cancel_left, ih]
    rfl

/-- What has been gone over. -/
theorem slice_of_stands (h : Stands source pos (text ++ rest)) :
    slice source pos (pos + byteCount text) = some text := by
  rw [slice, if_pos (Nat.le_add_right _ _), sliceFrom_eq_some_iff.mpr h, Nat.add_sub_cancel_left]
  exact sliceTo_byteCount text rest

/-- A position is in front of one rest only. -/
theorem Stands.unique {rest' : List Char} (h : Stands source pos rest) (h' : Stands source pos rest') :
    rest = rest' :=
  Option.some.inj ((sliceFrom_eq_some_iff.mpr h).symm.trans (sliceFrom_eq_some_iff.mpr h'))

/-! ## The byte at a boundary -/

/-- Behind the source there are no bytes. -/
theorem byteAt_of_le (h : byteCount source ≤ pos) : byteAt source pos = none := by
  rw [byteAt, List.getElem?_eq_none h]
  rfl

theorem byteAt_nil (h : Stands source pos []) : byteAt source pos = none := by
  rw [byteAt, ← List.head?_drop, drop_textBytes h]
  rfl

/-- At a boundary the byte and the character meet the same conditions. -/
theorem byteAt_cons (h : Stands source pos (c :: rest)) :
    ∃ d, byteAt source pos = some d ∧ (d = c ∨ 128 ≤ d.toNat ∧ 128 ≤ c.toNat) := by
  obtain ⟨b, bs, hbs⟩ := List.exists_cons_of_ne_nil (String.utf8EncodeChar_ne_nil (c := c))
  refine ⟨byteChar b, ?_, byteChar_of_mem (hbs ▸ List.mem_cons_self)⟩
  rw [byteAt, ← List.head?_drop, drop_textBytes h, textBytes_cons, hbs]
  rfl

/-- The byte at a boundary is an ASCII character exactly when the character is. -/
theorem exists_byteAt (h : Stands source pos (c :: rest)) :
    ∃ d, byteAt source pos = some d ∧ ∀ x : Char, x.toNat < 128 → (d = x ↔ c = x) := by
  obtain ⟨d, hd, hcases⟩ := byteAt_cons h
  refine ⟨d, hd, fun x hx => ?_⟩
  rcases hcases with rfl | ⟨hd', hc'⟩
  · exact Iff.rfl
  · constructor
    · rintro rfl
      omega
    · rintro rfl
      omega

theorem byteAt_ascii (h : Stands source pos (c :: rest)) (hc : c.toNat < 128) :
    byteAt source pos = some c := by
  obtain ⟨d, hd, rfl | ⟨-, hc'⟩⟩ := byteAt_cons h
  · exact hd
  · omega

theorem map_byteAt (hp : AsciiOnly p) (h : Stands source pos rest) :
    (byteAt source pos).map p = rest.head?.map p := by
  cases rest with
  | nil =>
    rw [byteAt_nil h]
    rfl
  | cons c rest =>
    obtain ⟨d, hd, hcases⟩ := byteAt_cons h
    rw [hd, List.head?_cons, Option.map_some, Option.map_some]
    rcases hcases with rfl | ⟨hd', hc'⟩
    · rfl
    · rw [hp d c hd' hc']

/-- An ASCII character stands there exactly when its byte does. -/
theorem byteAt_eq_some_iff (h : Stands source pos rest) (hc : c.toNat < 128) :
    byteAt source pos = some c ↔ rest.head? = some c := by
  have hmap := map_byteAt (asciiOnly_eq hc) h
  cases hbyte : byteAt source pos <;> cases hhead : rest.head? <;> simp_all

/-! ## Scanning -/

theorem scanPos_eq_takeWhile (p : Char → Bool) {fuel : ℕ} (pos : ℕ)
    (hfuel : byteCount source - pos < fuel) : scanPos source p fuel pos =
      some (pos + (((textBytes source).drop pos).takeWhile fun b => p (byteChar b)).length) := by
  induction fuel generalizing pos with
  | zero => omega
  | succ fuel ih =>
    rw [scanPos, byteAt, ← List.head?_drop]
    cases hdrop : (textBytes source).drop pos with
    | nil => rfl
    | cons b bs =>
      have hlength := congrArg List.length hdrop
      have hbs : (textBytes source).drop (pos + 1) = bs := by
        rw [← List.drop_drop, hdrop]
        rfl
      rw [List.length_drop, List.length_cons] at hlength
      rw [List.head?_cons, Option.map_some, List.takeWhile_cons]
      dsimp only
      split_ifs
      · rw [ih (pos + 1) (by rw [byteCount] at hfuel ⊢; omega), hbs, List.length_cons, Nat.add_assoc,
          Nat.add_comm 1]
      · rfl

/-- **From a boundary the loop goes on over the characters that meet the condition**, to a boundary. -/
theorem scanPos_eq (hp : AsciiOnly p) (h : Stands source pos rest) {fuel : ℕ}
    (hfuel : byteCount source < fuel) :
    scanPos source p fuel pos = some (pos + byteCount (rest.takeWhile p)) := by
  rw [scanPos_eq_takeWhile p pos (by omega), drop_textBytes h, takeWhile_textBytes hp]
  rfl

/-- A loop that does nothing but go on at the bytes that meet the condition, one round for each. -/
theorem run_takeWhile {β : Type} {f : ℕ → ℕ → β} (hp : AsciiOnly p)
    (hf : ∀ n pos c, byteAt source pos = some c → p c = true → f (n + 1) pos = f n (pos + 1))
    (h : Stands source pos rest) (n : ℕ) :
    f (n + byteCount (rest.takeWhile p)) pos = f n (pos + byteCount (rest.takeWhile p)) := by
  have hbytes : ∀ (k pos : ℕ),
      k ≤ (((textBytes source).drop pos).takeWhile fun b => p (byteChar b)).length →
      f (n + k) pos = f n (pos + k) := by
    intro k
    induction k with
    | zero => exact fun pos _ => rfl
    | succ k ih =>
      intro pos hk
      cases hdrop : (textBytes source).drop pos with
      | nil =>
        rw [hdrop] at hk
        cases hk
      | cons b bs =>
        rw [hdrop, List.takeWhile_cons] at hk
        split_ifs at hk with hb
        · have hbyte : byteAt source pos = some (byteChar b) := by
            rw [byteAt, ← List.head?_drop, hdrop]
            rfl
          have hbs : (textBytes source).drop (pos + 1) = bs := by
            rw [← List.drop_drop, hdrop]
            rfl
          rw [List.length_cons] at hk
          rw [← Nat.add_assoc, hf _ _ _ hbyte hb, ih (pos + 1) (by rw [hbs]; omega), Nat.add_assoc,
            Nat.add_comm 1]
        · cases hk
  refine hbytes _ pos ?_
  rw [drop_textBytes h, takeWhile_textBytes hp, byteCount]

theorem Stands.takeWhile (h : Stands source pos rest) (p : Char → Bool) :
    Stands source (pos + byteCount (rest.takeWhile p)) (rest.dropWhile p) := by
  have hsplit : Stands source pos (rest.takeWhile p ++ rest.dropWhile p) := by
    rwa [List.takeWhile_append_dropWhile]
  exact hsplit.skip

end Lib
