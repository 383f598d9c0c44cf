import Picloud.Lib.Bytes
import Mathlib.Data.List.Nodup
import Mathlib.Data.List.DropRight

/-!
# Text files of one JSON value a line

Files are byte strings. `utf8` and `ofUtf8` are the UTF-8 encoding and the checked decoding of a
string, `lines` splits a file at its newline bytes, `trim` strips Unicode white space at both ends
of a line. `JsonCodec` is what a program relies on of its JSON library: serialisation may fail, but
a text it yields is one trimmed, non-empty line. Whether the text parses back to the value is a
question of its own (`ReadsBack`): a library may round a float or refuse a value that is nested too
deeply. In a `RoundTripCodec` every value reads back.
-/

namespace Lib

/-! ## UTF-8 -/

/-- The UTF-8 bytes of a string. -/
def utf8 (s : String) : Bytes := s.toByteArray.data.toList

/-- Decode UTF-8; `none` on malformed bytes. -/
def ofUtf8 (b : Bytes) : Option String := String.fromUTF8? ⟨b.toArray⟩

@[simp] theorem ofUtf8_utf8 (s : String) : ofUtf8 (utf8 s) = some s := by
  have hbytes : (⟨(utf8 s).toArray⟩ : ByteArray) = s.toByteArray := by simp [utf8]
  rw [ofUtf8, hbytes, String.fromUTF8?, dif_pos s.isValidUTF8]
  rfl

variable {s : String} {c : Char}

/-- Bytes that decode are the encoding of what they decode to. -/
theorem utf8_of_ofUtf8 {b : Bytes} (h : ofUtf8 b = some s) : utf8 s = b := by
  unfold ofUtf8 String.fromUTF8? at h
  split_ifs at h with hvalid
  rw [Option.some.injEq] at h
  rw [← h, utf8]
  rfl

/-- A byte prefix of an encoding that decodes at all is the encoding of a prefix. -/
theorem toList_isPrefix_of_utf8 {p : String} (h : utf8 p <+: utf8 s) :
    p.toList <+: s.toList := by
  obtain ⟨rest, hrest⟩ := h
  apply List.isPrefix_of_utf8Encode_append_eq_utf8Encode ⟨rest.toArray⟩
  rw [String.utf8Encode_toList, String.utf8Encode_toList]
  ext1
  apply Array.toList_inj.mp
  simpa [utf8] using hrest

theorem utf8_eq_flatMap (s : String) : utf8 s = s.toList.flatMap String.utf8EncodeChar := by
  rw [utf8, ← String.utf8Encode_toList]
  simp [List.utf8Encode]

theorem utf8_append (s t : String) : utf8 (s ++ t) = utf8 s ++ utf8 t := by
  rw [utf8_eq_flatMap, utf8_eq_flatMap, utf8_eq_flatMap, String.toList_append, List.flatMap_append]

/-- An ASCII character is encoded as its own byte. -/
theorem notMem_toList_of_utf8 (hc : c.val.toNat < 128) (h : UInt8.ofNat c.val.toNat ∉ utf8 s) :
    c ∉ s.toList := by
  intro hmem
  refine h ?_
  rw [utf8_eq_flatMap, List.mem_flatMap]
  refine ⟨c, hmem, ?_⟩
  fun_cases String.utf8EncodeChar c
  · exact List.mem_cons_self
  all_goals omega

/-- Only an ASCII character is encoded with its own byte. -/
theorem notMem_utf8_of_ascii (hc : c.val.toNat < 128) (h : c ∉ s.toList) :
    UInt8.ofNat c.val.toNat ∉ utf8 s := by
  rw [utf8_eq_flatMap, List.mem_flatMap]
  rintro ⟨d, hd, hmem⟩
  have hvalue : d.val.toNat = c.val.toNat := by
    revert hmem
    fun_cases String.utf8EncodeChar d <;>
      simp only [List.mem_cons, List.not_mem_nil, or_false, ← UInt8.toNat_inj, UInt8.toNat_ofNat'] <;>
      omega
  have heq : d = c := Char.toNat_inj.mp hvalue
  exact h (heq ▸ hd)

theorem newline_notMem_utf8 (h : '\n' ∉ s.toList) : (10 : UInt8) ∉ utf8 s :=
  notMem_utf8_of_ascii (by decide) h

/-! ## Trimming -/

/-- The characters with the Unicode property `White_Space`. -/
def isWhitespace (c : Char) : Bool :=
  (0x9 ≤ c.toNat && c.toNat ≤ 0xD) || c.toNat == 0x20 || c.toNat == 0x85 || c.toNat == 0xA0 ||
    c.toNat == 0x1680 || (0x2000 ≤ c.toNat && c.toNat ≤ 0x200A) || c.toNat == 0x2028 ||
    c.toNat == 0x2029 || c.toNat == 0x202F || c.toNat == 0x205F || c.toNat == 0x3000

/-- Strip white space at both ends of a list of characters. -/
def trimChars (cs : List Char) : List Char :=
  (cs.dropWhile isWhitespace).rdropWhile isWhitespace

/-- `str::trim`. -/
def trim (s : String) : String := String.ofList (trimChars s.toList)

/-- A text without white space is its own trimming. -/
theorem trim_eq_self (h : ∀ c ∈ s.toList, isWhitespace c = false) : trim s = s := by
  have hfront : s.toList.dropWhile isWhitespace = s.toList := by
    cases hs : s.toList with
    | nil => rfl
    | cons c cs => rw [List.dropWhile_cons_of_neg (by simp [h c (hs ▸ List.mem_cons_self)])]
  have hback : s.toList.rdropWhile isWhitespace = s.toList := by
    rw [List.rdropWhile_eq_self_iff]
    intro hne
    simp [h _ (List.getLast_mem hne)]
  rw [trim, trimChars, hfront, hback, String.ofList_toList]

/-- Trimming a non-empty prefix of a trimmed text leaves a non-empty prefix. -/
theorem trim_of_isPrefix {p : String} (hs : trim s = s) (hp : p.toList <+: s.toList) (hne : p ≠ "") :
    trim p ≠ "" ∧ (trim p).toList <+: p.toList := by
  have hlist : trimChars s.toList = s.toList := by
    rw [← String.toList_ofList (l := trimChars s.toList)]
    exact congrArg String.toList hs
  obtain ⟨rest, hrest⟩ := hp
  cases hcs : p.toList with
  | nil => exact absurd (String.toList_inj.mp (hcs.trans String.toList_empty.symm)) hne
  | cons c cs =>
    -- the first character is that of `s`, which no trimming has removed
    have hc : isWhitespace c = false := by
      by_contra hws
      rw [Bool.not_eq_false] at hws
      have hdrop : s.toList.dropWhile isWhitespace = (cs ++ rest).dropWhile isWhitespace := by
        rw [← hrest, hcs, List.cons_append, List.dropWhile_cons_of_pos hws]
      have hlen : s.toList.length ≤ (cs ++ rest).length := by
        calc s.toList.length = (trimChars s.toList).length := by rw [hlist]
          _ ≤ ((cs ++ rest).dropWhile isWhitespace).length := by
            rw [trimChars, hdrop]
            exact (List.rdropWhile_prefix _ _).length_le
          _ ≤ (cs ++ rest).length := (List.dropWhile_suffix _).length_le
      rw [← hrest, hcs] at hlen
      simp at hlen
    have htrim : trimChars (c :: cs) = (c :: cs).rdropWhile isWhitespace := by
      rw [trimChars, List.dropWhile_cons_of_neg (by simp [hc])]
    rw [trim, String.toList_ofList, hcs, htrim]
    refine ⟨fun hempty => ?_, List.rdropWhile_prefix _ _⟩
    have hnil : (c :: cs).rdropWhile isWhitespace = [] := by
      simpa using congrArg String.toList hempty
    rw [List.rdropWhile_eq_nil_iff] at hnil
    simp [hnil c List.mem_cons_self] at hc

/-! ## Decimal numbers -/

/-- `str::parse` at an unsigned integer type: an optional plus sign and at least one digit. -/
def parseNat (s : String) : Option ℕ :=
  let digits := match s.toList with
    | '+' :: cs => cs
    | cs => cs
  if digits ≠ [] ∧ digits.all Char.isDigit then some (Nat.ofDigitChars 10 digits 0) else none

theorem toList_natText (n : ℕ) : (toString n).toList = Nat.toDigits 10 n := by
  rw [Nat.toString_eq_ofList_toDigits, String.toList_ofList]

private theorem isDigit_of_mem_natText {n : ℕ} (h : c ∈ (toString n).toList) :
    c.isDigit = true := by
  rw [toList_natText] at h
  exact Nat.isDigit_of_mem_toDigits (by decide) (by decide) h

/-- A written number parses back. -/
theorem parseNat_toString (n : ℕ) : parseNat (toString n) = some n := by
  have hne : Nat.toDigits 10 n ≠ [] := Nat.toDigits_ne_nil
  have hdigits : ∀ c ∈ Nat.toDigits 10 n, c.isDigit = true :=
    fun c hc => Nat.isDigit_of_mem_toDigits (by decide) (by decide) hc
  have hsign : (match Nat.toDigits 10 n with | '+' :: cs => cs | cs => cs) = Nat.toDigits 10 n := by
    split
    · next cs heq =>
        have := hdigits '+' (heq ▸ List.mem_cons_self)
        simp at this
    · rfl
  rw [parseNat, toList_natText]
  simp only [hsign]
  rw [if_pos ⟨hne, List.all_eq_true.mpr hdigits⟩, Nat.ofDigitChars_ten_toDigits]

theorem trim_natText (n : ℕ) : trim (toString n) = toString n := by
  apply trim_eq_self
  intro c hc
  have hdigit := isDigit_of_mem_natText hc
  simp only [Char.isDigit, Bool.and_eq_true, decide_eq_true_eq, ge_iff_le] at hdigit
  have h1 : 48 ≤ c.toNat := hdigit.1
  have h2 : c.toNat ≤ 57 := hdigit.2
  simp only [isWhitespace, Bool.or_eq_false_iff, Bool.and_eq_false_iff, decide_eq_false_iff_not,
    beq_eq_false_iff_ne]
  omega

/-! ## Lines -/

/-- Split at newline bytes, with the bytes of the current line collected in reverse. -/
def linesFrom : Bytes → Bytes → List Bytes
  | acc, [] => if acc = [] then [] else [acc.reverse]
  | acc, c :: cs => if c = 10 then acc.reverse :: linesFrom [] cs else linesFrom (c :: acc) cs

/-- The lines of a file, without their newline bytes. A last line that does not end in a newline
is still a line; nothing follows a final newline. -/
def lines (file : Bytes) : List Bytes := linesFrom [] file

/-- One line as it is written to a file. -/
def line (s : String) : Bytes := utf8 s ++ [10]

theorem linesFrom_append_newline (acc l rest : Bytes) (h : (10 : UInt8) ∉ l) :
    linesFrom acc (l ++ 10 :: rest) = (acc.reverse ++ l) :: linesFrom [] rest := by
  induction l generalizing acc with
  | nil => simp [linesFrom]
  | cons c cs ih =>
    rw [List.mem_cons, not_or] at h
    rw [List.cons_append, linesFrom, if_neg (Ne.symm h.1), ih _ h.2]
    simp

/-- The first line of a file that starts with a written line. -/
theorem lines_line_append (h : '\n' ∉ s.toList) (rest : Bytes) :
    lines (line s ++ rest) = utf8 s :: lines rest := by
  rw [lines, line, List.append_assoc, List.singleton_append, linesFrom_append_newline _ _ _
    (newline_notMem_utf8 h)]
  rfl

/-- Bytes without a newline are one line. -/
theorem lines_of_notMem {b : Bytes} (h : (10 : UInt8) ∉ b) (hne : b ≠ []) : lines b = [b] := by
  have hfrom : ∀ (b acc : Bytes), (10 : UInt8) ∉ b →
      linesFrom acc b = if acc.reverse ++ b = [] then [] else [acc.reverse ++ b] := by
    intro b
    induction b with
    | nil => intro acc _; simp [linesFrom]
    | cons c cs ih =>
      intro acc hnot
      rw [List.mem_cons, not_or] at hnot
      rw [linesFrom, if_neg (Ne.symm hnot.1), ih _ hnot.2]
      simp
  rw [lines, hfrom b [] h]
  simp [hne]

/-- A text that stands alone on a line: no newline, no white space at its ends, not empty. -/
def IsLine (s : String) : Prop := '\n' ∉ s.toList ∧ trim s = s ∧ s ≠ ""

theorem isLine_ofList {cs : List Char} (h : '\n' ∉ cs ∧ trimChars cs = cs ∧ cs ≠ []) :
    IsLine (String.ofList cs) := by
  refine ⟨by rw [String.toList_ofList]; exact h.1, ?_, ?_⟩
  · rw [trim, String.toList_ofList, h.2.1]
  · intro hempty
    have := congrArg String.toList hempty
    rw [String.toList_ofList] at this
    exact h.2.2 this

/-! ## Literals

A literal is compared by its characters, without decoding its bytes.
-/

theorem toList_of_eq {s : String} {cs : List Char} (h : s = String.ofList cs) : s.toList = cs := by
  rw [h, String.toList_ofList]

theorem ne_of_toList {s t : String} {cs ds : List Char} (hs : s = String.ofList cs) (ht : t = String.ofList ds)
    (h : cs ≠ ds) : s ≠ t := by
  rintro rfl
  rw [← toList_of_eq hs, ← toList_of_eq ht] at h
  exact h rfl

theorem nodup_texts {s t u : String} (hst : s ≠ t) (hsu : s ≠ u) (htu : t ≠ u) : [s, t, u].Nodup := by
  simp [hst, hsu, htu]

theorem getElem?_toList_append {s : String} {cs rest : List Char} {c : Char} {i : Nat} (hs : s = String.ofList cs)
    (h : cs[i]? = some c) : (s.toList ++ rest)[i]? = some c := by
  obtain ⟨hlength, -⟩ := List.getElem?_eq_some_iff.mp h
  rw [toList_of_eq hs, List.getElem?_append_left hlength, h]

/-! ## The JSON library -/

/-- `serde_json` at one type: `toString` is `to_string`, `fromStr` is `from_str`, and errors are
their texts. -/
structure JsonCodec (α : Type*) where
  toString : α → Except String String
  fromStr : String → Except String α
  /-- A parsed value can be serialised. -/
  toString_of_fromStr : ∀ {a s}, fromStr s = .ok a → ∃ t, toString a = .ok t
  /-- Compact JSON escapes control characters and has no white space around it. -/
  isLine : ∀ {a s}, toString a = .ok s → IsLine s

namespace JsonCodec

variable {α : Type*} (J : JsonCodec α)

/-- The value can be serialised. -/
def Writes (a : α) : Prop := ∃ s, J.toString a = .ok s

/-- The text of a value that can be serialised. -/
def text (a : α) : String :=
  match J.toString a with
  | .ok s => s
  | .error _ => ""

theorem Writes.toString_eq {J : JsonCodec α} {a : α} (h : J.Writes a) :
    J.toString a = .ok (J.text a) := by
  obtain ⟨s, hs⟩ := h
  rw [text, hs]

/-- The text of the value parses to the value again. -/
def ReadsBack (a : α) : Prop := ∃ s, J.toString a = .ok s ∧ J.fromStr s = .ok a

theorem ReadsBack.writes {J : JsonCodec α} {a : α} (h : J.ReadsBack a) : J.Writes a :=
  let ⟨s, hs, _⟩ := h
  ⟨s, hs⟩

theorem ReadsBack.fromStr_text {J : JsonCodec α} {a : α} (h : J.ReadsBack a) :
    J.fromStr (J.text a) = .ok a := by
  obtain ⟨s, hs, hread⟩ := h
  rw [text, hs]
  exact hread

theorem Writes.readsBack_iff {J : JsonCodec α} {a : α} (h : J.Writes a) :
    J.ReadsBack a ↔ J.fromStr (J.text a) = .ok a :=
  ⟨ReadsBack.fromStr_text, fun hread => ⟨_, h.toString_eq, hread⟩⟩

/-- Every proper prefix of a serialised value is rejected: the text of a record is one JSON object,
and it ends where the object is closed. -/
def RejectsCut : Prop :=
  ∀ {a s p}, J.toString a = .ok s → p.toList <+: s.toList → p ≠ s → ∃ e, J.fromStr p = .error e

/-- The codec that reads the text of a value as `f` of the value. -/
def rereading (f : α → α) (hf : ∀ {a}, J.Writes a → J.Writes (f a)) : JsonCodec α where
  toString := J.toString
  fromStr s := (J.fromStr s).map f
  toString_of_fromStr := by
    intro a s h
    cases hs : J.fromStr s with
    | error e => simp [hs, Except.map] at h
    | ok b =>
      simp only [hs, Except.map, Except.ok.injEq] at h
      exact h ▸ hf (J.toString_of_fromStr hs)
  isLine := J.isLine

/-- What is read for the text of a value that reads back in `J`. -/
theorem fromStr_rereading {f : α → α} (hf : ∀ {a}, J.Writes a → J.Writes (f a)) {a : α}
    (h : J.ReadsBack a) : (J.rereading f hf).fromStr ((J.rereading f hf).text a) = .ok (f a) := by
  obtain ⟨s, hs, hread⟩ := h
  simp only [text, rereading, hs, hread, Except.map]

end JsonCodec

/-- `serde_json` at a type all of whose values read back. -/
structure RoundTripCodec (α : Type*) extends JsonCodec α where
  /-- A serialised value parses back. -/
  fromStr_toString : ∀ {a s}, toString a = .ok s → fromStr s = .ok a

namespace RoundTripCodec

variable {α : Type*} (J : RoundTripCodec α)

instance toCodec : Coe (RoundTripCodec α) (JsonCodec α) := ⟨RoundTripCodec.toJsonCodec⟩

theorem readsBack {a : α} (h : J.Writes a) : J.ReadsBack a :=
  let ⟨s, hs⟩ := h
  ⟨s, hs, J.fromStr_toString hs⟩

/-- A codec that knows the listed values, each with its text. -/
def ofTable [DecidableEq α] (table : List (α × String))
    (htexts : (table.map Prod.snd).Nodup)
    (hlines : ∀ p ∈ table, IsLine p.2) : RoundTripCodec α where
  toString a := match table.find? fun p => p.1 = a with
    | some p => .ok p.2
    | none => .error "value is not in the table"
  fromStr s := match table.find? fun p => p.2 = s with
    | some p => .ok p.1
    | none => .error "text is not in the table"
  fromStr_toString := by
    intro a s h
    split at h
    case h_2 => simp at h
    case h_1 p hp =>
      obtain rfl := Except.ok.inj h
      have hmem := List.mem_of_find?_eq_some hp
      have hpa : p.1 = a := by simpa using List.find?_some hp
      split
      case h_2 hnone =>
        rw [List.find?_eq_none] at hnone
        exact absurd (decide_eq_true rfl) (hnone p hmem)
      case h_1 q hq =>
        have hqp : q.2 = p.2 := by simpa using List.find?_some hq
        rw [← hpa, List.inj_on_of_nodup_map htexts (List.mem_of_find?_eq_some hq) hmem hqp]
  toString_of_fromStr := by
    intro a s h
    split at h
    case h_2 => simp at h
    case h_1 p hp =>
      obtain rfl := Except.ok.inj h
      split
      case h_1 q _ => exact ⟨q.2, rfl⟩
      case h_2 hnone =>
        rw [List.find?_eq_none] at hnone
        exact absurd (decide_eq_true rfl) (hnone p (List.mem_of_find?_eq_some hp))
  isLine := by
    intro a s h
    split at h
    case h_2 => simp at h
    case h_1 p hp => exact Except.ok.inj h ▸ hlines p (List.mem_of_find?_eq_some hp)

/-- A codec whose texts are all equally long rejects every proper prefix of them. -/
theorem rejectsCut_ofTable [DecidableEq α] {table : List (α × String)} {n : ℕ}
    {htexts : (table.map Prod.snd).Nodup} {hlines : ∀ p ∈ table, IsLine p.2}
    (hlength : ∀ p ∈ table, p.2.toList.length = n) :
    (ofTable table htexts hlines).RejectsCut := by
  intro a s p hs hpre hne
  have hsn : s.toList.length = n := by
    simp only [ofTable] at hs
    split at hs
    case h_2 => simp at hs
    case h_1 q hq => exact Except.ok.inj hs ▸ hlength q (List.mem_of_find?_eq_some hq)
  refine ⟨"text is not in the table", ?_⟩
  have hnone : table.find? (fun q => q.2 = p) = none := by
    rw [List.find?_eq_none]
    intro q hq hqp
    have hpn : p.toList.length = n := of_decide_eq_true hqp ▸ hlength q hq
    exact hne (String.toList_inj.mp (hpre.eq_of_length (hpn.trans hsn.symm)))
  simp only [ofTable, hnone]

end RoundTripCodec

end Lib
