import FlowExpr.Proofs.Text.Bytes
import FlowExpr.Proofs.Text.Positions

/-!
# Slices and readers of bytes

A span can be sliced if its ends are in order, inside of the text, and in no character
(`Sliceable`); `slice?` succeeds exactly then (`isSome_slice?_iff`).

A reader of bytes may fail at any byte. To see that it does not, it is enough to look at one
character at a time: `foldlM_encode` follows a reader of characters along the bytes, and
`foldlM_charBytes` says what is to be shown for one character. The bytes of a wide character are
passed over together, since none of them means anything.
-/

namespace FlowExpr.Text

/-! ## Slices -/

/-- The span has its ends in order, inside of the text and between characters. -/
structure Sliceable (cs : List Char) (span : Span) : Prop where
  ordered : span.start ≤ span.stop
  within : span.stop ≤ byteLength cs
  start_place : IsPlace cs span.start
  stop_place : IsPlace cs span.stop

theorem IsPlace.le_byteLength {cs : List Char} {offset : Nat} (h : IsPlace cs offset) :
    offset ≤ byteLength cs := by
  obtain ⟨a, b, rfl, rfl⟩ := h.exists_append
  rw [byteLength_append]
  exact Nat.le_add_right _ _

/-- Behind a character there is a place. -/
theorem isPlace_behind (done : List Char) (c : Char) (rest : List Char) :
    IsPlace (done ++ c :: rest) (byteLength done + c.utf8Size) := by
  have hplace := isPlace_append (done ++ [c]) rest
  rw [List.append_assoc, byteLength_append] at hplace
  exact hplace

theorem IsPlace.sliceable {cs : List Char} {m n : Nat} (hm : IsPlace cs m) (hn : IsPlace cs n)
    (h : m ≤ n) : Sliceable cs ⟨m, n⟩ :=
  ⟨h, hn.le_byteLength, hm, hn⟩

/-- A slice can be taken exactly of such a span. -/
theorem isSome_slice?_iff {cs : List Char} {span : Span} :
    (slice? cs span).isSome = true ↔ Sliceable cs span := by
  constructor
  · intro h
    obtain ⟨part, hpart⟩ := Option.isSome_iff_exists.1 h
    obtain ⟨x, z, rfl, hstart, hstop⟩ := exists_of_slice?_eq_some hpart
    have hfront : IsPlace (x ++ (part ++ z)) (byteLength (x ++ part)) := by
      rw [← List.append_assoc]
      exact isPlace_append _ _
    rw [byteLength_append, hstop] at hfront
    exact ⟨by omega, hfront.le_byteLength, hstart ▸ isPlace_append _ _, hfront⟩
  · intro h
    obtain ⟨a, x, hx, hstart⟩ := h.start_place.exists_append
    obtain ⟨front, b, hb, hstop⟩ := h.stop_place.exists_append
    have hle : byteLength a ≤ byteLength front := by
      rw [hstart, hstop]
      exact h.ordered
    obtain ⟨z, rfl, -⟩ := exists_append_of_byteLength_le (hx.symm.trans hb) hle
    rw [byteLength_append] at hstop
    rw [List.append_assoc] at hb
    exact Option.isSome_iff_exists.2 ⟨z, slice?_of_eq hb hstart.symm hstop.symm⟩

/-- A slice does not start inside a character. -/
example : slice? ['é', 'x'] ⟨1, 3⟩ = none := rfl

theorem Sliceable.slice?_eq {cs : List Char} {span : Span} (h : Sliceable cs span) :
    slice? cs span = some (slice cs span) := by
  obtain ⟨part, hpart⟩ := Option.isSome_iff_exists.1 (isSome_slice?_iff.2 h)
  rw [slice, hpart, Option.getD_some]

/-! ## Readers of bytes -/

theorem utf8Size_of_ascii {c : Char} (h : c.toNat < 128) : c.utf8Size = 1 := by
  rw [← length_charBytes, charBytes_of_ascii h]
  rfl

section

variable {σ τ : Type} {step : σ → Char → σ} {step? : τ → Char → Option τ} {view : σ → τ}

/-- A reader of bytes follows a reader of characters if it does so at each character. What may be
used about the reader of characters is an invariant `Inv` of the text read and the state. -/
theorem foldlM_encode {Inv : List Char → σ → Prop} {source : List Char}
    (hinv : ∀ done c rest s, source = done ++ c :: rest → Inv done s →
      Inv (done ++ [c]) (step s c))
    (hstep : ∀ done c rest s, source = done ++ c :: rest → Inv done s →
      (charBytes c).foldlM step? (view s) = some (view (step s c)))
    {done rest : List Char} {s : σ} (hsource : source = done ++ rest) (hs : Inv done s) :
    (encode rest).foldlM step? (view s) = some (view (rest.foldl step s)) ∧
      Inv source (rest.foldl step s) := by
  induction rest generalizing done s with
  | nil =>
    rw [List.append_nil] at hsource
    exact ⟨rfl, hsource ▸ hs⟩
  | cons c rest ih =>
    have hrest := ih (by rw [hsource]; simp) (hinv done c rest s hsource hs)
    rw [encode_cons, List.foldlM_append, hstep done c rest s hsource hs]
    exact hrest

/-- Wide bytes that are each passed over are passed over together. -/
theorem foldlM_of_wide {skip : Nat → τ → τ}
    (hwide : ∀ b t, 128 ≤ b.toNat → step? t b = some (skip 1 t))
    (hskip : ∀ n t, skip (n + 1) (skip 1 t) = skip (n + 2) t) {bs : List Char} (hne : bs ≠ [])
    (hbs : ∀ b ∈ bs, 128 ≤ b.toNat) (t : τ) :
    bs.foldlM step? t = some (skip bs.length t) := by
  induction bs generalizing t with
  | nil => exact absurd rfl hne
  | cons b bs ih =>
    rw [List.foldlM_cons, hwide b t (hbs b List.mem_cons_self)]
    cases bs with
    | nil => rfl
    | cons d bs =>
      have hrest := ih (List.cons_ne_nil d bs) (fun e he => hbs e (List.mem_cons_of_mem b he))
        (skip 1 t)
      rw [List.length_cons, hskip] at hrest
      exact hrest

/-- One character: a wide one is passed over byte by byte, any other is its own byte. -/
theorem foldlM_charBytes {skip : Nat → τ → τ}
    (hwide : ∀ b t, 128 ≤ b.toNat → step? t b = some (skip 1 t))
    (hskip : ∀ n t, skip (n + 1) (skip 1 t) = skip (n + 2) t) (c : Char) (t : τ) :
    (charBytes c).foldlM step? t =
      if c.toNat < 128 then step? t c else some (skip c.utf8Size t) := by
  split
  · rename_i hascii
    rw [charBytes_of_ascii hascii, List.foldlM_cons]
    simp
  · rename_i hc
    have hne : charBytes c ≠ [] :=
      List.ne_nil_of_length_pos (by rw [length_charBytes]; exact c.utf8Size_pos)
    have hbytes : ∀ b ∈ charBytes c, 128 ≤ b.toNat := fun b hb =>
      le_toNat_of_mem_charBytes (Nat.le_of_not_lt hc) hb
    rw [foldlM_of_wide hwide hskip hne hbytes, length_charBytes]

end

end FlowExpr.Text
