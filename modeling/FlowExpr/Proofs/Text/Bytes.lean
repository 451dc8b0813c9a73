import FlowExpr.Text.Blank
import FlowExpr.Text.Offset
import FlowExpr.Text.Word
import Mathlib.Data.List.Basic

/-!
# The bytes behind the characters

Texts are read by characters and measured in bytes. `bytes` is the reading by bytes: the UTF-8 bytes
of a text, each as the character of its number. All characters that shape an expression are ASCII,
so they are their own single byte, and every byte of any other character lies above them.
`exists_of_encode_eq_append_cons` is what this gives: an ASCII character among the bytes is a
character of the text, and the bytes before and behind it are those of the text before and behind.
-/

namespace FlowExpr.Text

/-- The UTF-8 bytes of a text, each read as the character of its number. -/
def bytes (source : String) : List Char :=
  source.toUTF8.data.toList.map fun b => Char.ofNat b.toNat

/-- The bytes of one character. -/
def charBytes (c : Char) : List Char :=
  (String.utf8EncodeChar c).map fun b => Char.ofNat b.toNat

/-- The bytes of a list of characters. -/
def encode (cs : List Char) : List Char := cs.flatMap charBytes

@[simp] theorem encode_nil : encode [] = [] := rfl

@[simp] theorem encode_cons (c : Char) (cs : List Char) :
    encode (c :: cs) = charBytes c ++ encode cs := rfl

@[simp] theorem encode_append (a b : List Char) : encode (a ++ b) = encode a ++ encode b :=
  List.flatMap_append

theorem bytes_eq_encode (source : String) : bytes source = encode source.toList := by
  unfold bytes encode
  rw [String.toUTF8_eq_toByteArray, ← String.utf8Encode_toList, List.utf8Encode,
    List.toList_data_toByteArray, List.map_flatMap]
  rfl

@[simp] theorem length_charBytes (c : Char) : (charBytes c).length = c.utf8Size := by
  simp [charBytes]

@[simp] theorem length_encode (cs : List Char) : (encode cs).length = byteLength cs := by
  induction cs with
  | nil => rfl
  | cons c cs ih => simp [ih]

theorem toNat_ofNat_byte {n : Nat} (h : n < 256) : (Char.ofNat n).toNat = n := by
  have hvalid : n.isValidChar := Or.inl (by omega)
  rw [Char.ofNat, dif_pos hvalid]
  rfl

/-- An ASCII character is its own byte. -/
theorem charBytes_of_ascii {c : Char} (h : c.toNat < 128) : charBytes c = [c] := by
  have hle : c.val.toNat ≤ 0x7f := Nat.le_of_lt_succ h
  have hmod : c.val.toNat % 256 = c.val.toNat := Nat.mod_eq_of_lt (by omega)
  unfold charBytes String.utf8EncodeChar
  simp only [hle, if_true, List.map_cons, List.map_nil]
  rw [UInt8.toNat_ofNat', show 2 ^ 8 = 256 from rfl, hmod]
  exact congrArg (· :: []) (Char.ofNat_toNat c)

/-- No byte of a wider character is ASCII. -/
theorem le_toNat_of_mem_charBytes {c b : Char} (hc : 128 ≤ c.toNat) (hb : b ∈ charBytes c) :
    128 ≤ b.toNat := by
  have hlt : ¬ c.val.toNat ≤ 0x7f := Nat.not_le.2 hc
  obtain ⟨u, hu, rfl⟩ := List.mem_map.1 hb
  have hbyte : 128 ≤ u.toNat := by
    unfold String.utf8EncodeChar at hu
    simp only [hlt, if_false] at hu
    split at hu
    · simp only [List.mem_cons, List.not_mem_nil, or_false] at hu
      rcases hu with rfl | rfl <;> rw [UInt8.toNat_ofNat'] <;> omega
    · split at hu
      · simp only [List.mem_cons, List.not_mem_nil, or_false] at hu
        rcases hu with rfl | rfl | rfl <;> rw [UInt8.toNat_ofNat'] <;> omega
      · simp only [List.mem_cons, List.not_mem_nil, or_false] at hu
        rcases hu with rfl | rfl | rfl | rfl <;> rw [UInt8.toNat_ofNat'] <;> omega
  rw [toNat_ofNat_byte u.toNat_lt]
  exact hbyte

theorem encode_of_ascii {cs : List Char} (h : ∀ c ∈ cs, c.toNat < 128) : encode cs = cs := by
  induction cs with
  | nil => rfl
  | cons c cs ih =>
    rw [encode_cons, charBytes_of_ascii (h c List.mem_cons_self),
      ih fun d hd => h d (List.mem_cons_of_mem _ hd)]
    rfl

theorem byteLength_of_ascii {cs : List Char} (h : ∀ c ∈ cs, c.toNat < 128) :
    byteLength cs = cs.length := by
  rw [← length_encode, encode_of_ascii h]

/-! ## What is ASCII -/

/-- Digits come first among the name characters. -/
theorem toNat_of_isNameChar {c : Char} (h : isNameChar c = true) :
    48 ≤ c.toNat ∧ c.toNat < 128 := by
  delta isNameChar Char.isAlphanum Char.isAlpha Char.isUpper Char.isLower Char.isDigit at h
  simp only [Bool.or_eq_true, Bool.and_eq_true, decide_eq_true_eq, UInt32.le_iff_toNat_le] at h
  rcases h with ((h | h) | h) | rfl
  · exact ⟨Nat.le_trans (by decide) h.1, Nat.lt_of_le_of_lt h.2 (by decide)⟩
  · exact ⟨Nat.le_trans (by decide) h.1, Nat.lt_of_le_of_lt h.2 (by decide)⟩
  · exact ⟨h.1, Nat.lt_of_le_of_lt h.2 (by decide)⟩
  · decide

theorem ascii_of_isNameChar {c : Char} (h : isNameChar c = true) : c.toNat < 128 :=
  (toNat_of_isNameChar h).2

theorem ascii_of_isAsciiBlank {c : Char} (h : isAsciiBlank c = true) : c.toNat < 128 := by
  simp only [isAsciiBlank, Bool.or_eq_true, decide_eq_true_eq] at h
  rcases h with (((rfl | rfl) | rfl) | rfl) | rfl <;> decide

theorem isNameChar_of_wide {c : Char} (h : 128 ≤ c.toNat) : isNameChar c = false := by
  cases hn : isNameChar c with
  | false => rfl
  | true => exact absurd (ascii_of_isNameChar hn) (by omega)

theorem ne_of_wide {c d : Char} (hc : 128 ≤ c.toNat) (hd : d.toNat < 128) : c ≠ d := by
  intro h
  rw [h] at hc
  omega

/-- An ASCII byte is a byte of its own character only. -/
theorem count_charBytes {d : Char} (hd : d.toNat < 128) (c : Char) :
    (charBytes c).count d = [c].count d := by
  by_cases hc : c.toNat < 128
  · rw [charBytes_of_ascii hc]
  · have hwide : 128 ≤ c.toNat := Nat.le_of_not_lt hc
    have hbytes : d ∉ charBytes c := fun hmem =>
      absurd (le_toNat_of_mem_charBytes hwide hmem) (Nat.not_le.2 hd)
    have hchar : d ∉ [c] := fun hmem => ne_of_wide hwide hd (List.mem_singleton.1 hmem).symm
    rw [List.count_eq_zero.2 hbytes, List.count_eq_zero.2 hchar]

/-- An ASCII character is as often among the bytes as in the text. -/
theorem count_encode {d : Char} (hd : d.toNat < 128) (cs : List Char) :
    (encode cs).count d = cs.count d := by
  induction cs with
  | nil => rfl
  | cons c cs ih =>
    rw [encode_cons, List.count_append, count_charBytes hd, ih, ← List.count_append]
    rfl

/-! ## From bytes back to characters -/

/-- An ASCII byte is a character of the text. -/
theorem exists_of_encode_eq_append_cons {cs before behind : List Char} {c : Char}
    (hc : c.toNat < 128) (h : encode cs = before ++ c :: behind) :
    ∃ a b, cs = a ++ c :: b ∧ before = encode a ∧ behind = encode b := by
  induction cs generalizing before with
  | nil => simp at h
  | cons d cs ih =>
    rw [encode_cons] at h
    rcases List.append_eq_append_iff.1 h with ⟨x, hx, hcs⟩ | ⟨x, hx, hcs⟩
    · obtain ⟨a, b, rfl, rfl, rfl⟩ := ih hcs
      exact ⟨d :: a, b, rfl, hx, rfl⟩
    · cases x with
      | nil =>
        have hcs' : encode cs = [] ++ c :: behind := hcs.symm
        obtain ⟨a, b, rfl, ha, rfl⟩ := ih hcs'
        refine ⟨d :: a, b, rfl, ?_, rfl⟩
        rw [encode_cons, ← ha, List.append_nil, hx, List.append_nil]
      | cons e x =>
        -- The bytes of `d` hold an ASCII one, so `d` is ASCII and that byte is all of it.
        obtain ⟨rfl, htail⟩ := List.cons.inj hcs
        have hmem : c ∈ charBytes d := by rw [hx]; simp
        have hd : d.toNat < 128 := by
          by_cases hd : d.toNat < 128
          · exact hd
          · exact absurd (le_toNat_of_mem_charBytes (by omega) hmem) (by omega)
        rw [charBytes_of_ascii hd] at hx
        cases before with
        | nil =>
          obtain ⟨rfl, hx'⟩ := List.cons.inj hx
          exact ⟨[], cs, rfl, rfl, by rw [htail, ← hx']; rfl⟩
        | cons f before =>
          have hlen := congrArg List.length hx
          simp at hlen

/-- A run of ASCII bytes is that run of the text. -/
theorem exists_of_encode_eq_ascii_append {cs front behind : List Char}
    (hfront : ∀ c ∈ front, c.toNat < 128) (h : encode cs = front ++ behind) :
    ∃ b, cs = front ++ b ∧ behind = encode b := by
  induction front generalizing cs with
  | nil => exact ⟨cs, rfl, h.symm⟩
  | cons c front ih =>
    have h' : encode cs = [] ++ c :: (front ++ behind) := h
    obtain ⟨a, b, rfl, ha, hb⟩ :=
      exists_of_encode_eq_append_cons (hfront c List.mem_cons_self) h'
    have hnil : a = [] := by
      rw [← byteLength_eq_zero_iff, ← length_encode, ← ha]
      rfl
    subst hnil
    obtain ⟨t, rfl, ht⟩ := ih (fun d hd => hfront d (List.mem_cons_of_mem _ hd)) hb.symm
    exact ⟨t, rfl, ht⟩

/-- A run of ASCII bytes in the middle is that run of the text. -/
theorem exists_of_encode_eq_append_ascii {cs before run behind : List Char} (hne : run ≠ [])
    (hrun : ∀ c ∈ run, c.toNat < 128) (h : encode cs = before ++ (run ++ behind)) :
    ∃ a b, cs = a ++ (run ++ b) ∧ before = encode a ∧ behind = encode b := by
  obtain ⟨c, run, rfl⟩ := List.exists_cons_of_ne_nil hne
  obtain ⟨a, rest, rfl, hbefore, hrest⟩ :=
    exists_of_encode_eq_append_cons (hrun c List.mem_cons_self) h
  obtain ⟨b, rfl, hbehind⟩ :=
    exists_of_encode_eq_ascii_append (fun d hd => hrun d (List.mem_cons_of_mem _ hd)) hrest.symm
  exact ⟨a, b, rfl, hbefore, hbehind⟩

/-- A text is known from its bytes. -/
theorem encode_injective : Function.Injective encode := by
  intro a b h
  have hbyte : Function.Injective fun u : UInt8 => Char.ofNat u.toNat := by
    intro u v huv
    have hnat := congrArg Char.toNat huv
    simp only [toNat_ofNat_byte u.toNat_lt, toNat_ofNat_byte v.toNat_lt] at hnat
    exact UInt8.toNat_inj.1 hnat
  have hbytes : bytes (String.ofList a) = bytes (String.ofList b) := by
    rw [bytes_eq_encode, bytes_eq_encode, String.toList_ofList, String.toList_ofList, h]
  have hdata := ByteArray.ext (Array.toList_inj.1 (List.map_injective_iff.2 hbyte hbytes))
  exact String.ofList_injective (String.toByteArray_inj.1 hdata)

/-! ## Bytes between two offsets -/

/-- The bytes of a text between two offsets. -/
def bytesBetween (source : String) (start stop : Nat) : List Char :=
  ((bytes source).take stop).drop start

/-- The bytes of a span are those of the text that stands there. -/
theorem bytesBetween_of_slice? {source : String} {span : Span} {part : List Char}
    (h : slice? source.toList span = some part) :
    bytesBetween source span.start span.stop = encode part := by
  obtain ⟨x, z, hsource, hstart, hstop⟩ := exists_of_slice?_eq_some h
  have hfront : (encode x).length = span.start := by rw [length_encode, hstart]
  have htaken : (encode x ++ encode part).length = span.stop := by
    rw [List.length_append, length_encode, length_encode, hstop]
  rw [bytesBetween, bytes_eq_encode, hsource, encode_append, encode_append, ← List.append_assoc,
    List.take_left' htaken, List.drop_left' hfront]

/-- Two texts that differ somewhere between two offsets differ in a byte there. -/
theorem exists_ne_of_bytesBetween_ne {s s' : String} {start stop : Nat}
    (h : bytesBetween s start stop ≠ bytesBetween s' start stop) :
    ∃ i, start ≤ i ∧ i < stop ∧ (bytes s)[i]? ≠ (bytes s')[i]? := by
  by_contra hsame
  apply h
  apply List.ext_getElem?
  intro n
  rw [bytesBetween, bytesBetween, List.getElem?_drop, List.getElem?_drop, List.getElem?_take,
    List.getElem?_take]
  split
  · rename_i hlt
    by_contra hne
    exact hsame ⟨start + n, Nat.le_add_right _ _, hlt, hne⟩
  · rfl

end FlowExpr.Text
