import FlowExpr.Proofs.Analysis.Diagnose
import FlowExpr.Proofs.Call.ArgumentList
import FlowExpr.Proofs.Call.ByteSearch

/-!
# Texts read one after the other

What does the pass find in `s ++ t`, compared with what it finds in `s` and in `t`?

**A text cut short** (`analyze_sublist_append`). All that is found in `s` is found in `s ++ t`, in
the same order and unchanged. A step of the pass may complete a call, but it never gives one up,
and the call site of a completed call is read from the text in front of its closing parenthesis.

**Texts apart** (`analyze_append_of_settled`). When the pass is *settled* after `s`, with nothing
open and nothing that could lead up to a call, it goes on as from the start. Then `s ++ t` has the
calls of `s`, and behind them those of `t`, moved by the length of `s`.
-/

namespace FlowExpr

open Text

/-! ## No step gives a call up -/

/-- Closing keeps the calls held by the frame, behind the call of the frame itself. -/
theorem OpenParen.calls_sublist_close (f : OpenParen) (pos : Nat) :
    f.calls.Sublist (f.close pos) := by
  unfold close
  split
  · exact List.sublist_cons_self _ _
  · exact List.Sublist.refl _

namespace CallFinder

theorem completed_openParen (s : CallFinder) : s.openParen.completed = s.completed := by
  simp [completed, openParen, OpenParen.opened]

theorem completed_modifyTop (s : CallFinder) {f : OpenParen → OpenParen}
    (hcalls : ∀ top, (f top).calls = top.calls) : (s.modifyTop f).completed = s.completed := by
  obtain ⟨pos, quote, lead, frames, calls⟩ := s
  cases frames with
  | nil => rfl
  | cons top rest => simp [completed, modifyTop, hcalls]

theorem completed_sublist_closeParen (s : CallFinder) :
    s.completed.Sublist s.closeParen.completed := by
  obtain ⟨pos, quote, lead, frames, calls⟩ := s
  cases frames with
  | nil => exact List.Sublist.refl _
  | cons top outers =>
    cases outers with
    | nil =>
      simp only [completed, closeParen, List.reverse_cons, List.reverse_nil, List.nil_append,
        List.flatMap_cons, List.flatMap_nil, List.append_nil]
      exact (top.calls_sublist_close pos).append_left calls
    | cons outer rest =>
      simp only [completed, closeParen, List.reverse_cons, List.flatMap_append, List.flatMap_cons,
        List.flatMap_nil, List.append_nil, List.append_assoc]
      apply List.Sublist.append_left
      apply List.Sublist.append_left
      apply List.Sublist.append_left
      exact top.calls_sublist_close pos

theorem completed_sublist_act (s : CallFinder) (c : Char) :
    s.completed.Sublist (s.act c).completed := by
  unfold act
  split_ifs
  · rw [completed_openParen]
  · exact s.completed_sublist_closeParen
  · rw [completed_modifyTop]
    intro top
    unfold OpenParen.comma
    split <;> rfl
  · rw [completed_modifyTop]
    intro top
    rfl
  · exact List.Sublist.refl _

/-- Strings, offsets and names do not matter to what is complete. -/
theorem completed_step (s : CallFinder) (c : Char) :
    (s.step c).completed =
      if s.quote.isStructural c then (s.act c).completed else s.completed := by
  unfold step
  split <;> rfl

theorem completed_sublist_step (s : CallFinder) (c : Char) :
    s.completed.Sublist (s.step c).completed := by
  rw [completed_step]
  split
  · exact s.completed_sublist_act c
  · exact List.Sublist.refl _

/-- What is complete stays complete, in its order, whatever else is read. -/
theorem completed_sublist_foldl (s : CallFinder) (cs : List Char) :
    s.completed.Sublist (cs.foldl step s).completed := by
  induction cs generalizing s with
  | nil => exact List.Sublist.refl _
  | cons c cs ih => exact (s.completed_sublist_step c).trans (ih (s.step c))

end CallFinder

/-! ## A text cut short -/

/-- A call stands in every longer text. -/
theorem WrittenCall.append {source before name blanks body rest : List Char}
    (h : WrittenCall source before name blanks body rest) (t : List Char) :
    WrittenCall (source ++ t) before name blanks body (rest ++ t) := by
  refine h.relocate ?_ h.outside h.boundary
  rw [h.source_eq]
  simp

namespace CallShape

theorem findAll_sublist_append (s t : List Char) : (findAll s).Sublist (findAll (s ++ t)) := by
  unfold findAll
  rw [List.foldl_append]
  exact CallFinder.completed_sublist_foldl _ t

/-- The call site of a shape does not depend on what stands behind the call. -/
theorem resolve_append {s : List Char} {shape : CallShape} (h : shape ∈ findAll s)
    (t : List Char) : shape.resolve (s ++ t) = shape.resolve s := by
  obtain ⟨before, name, blanks, body, rest, hw, rfl⟩ := mem_findAll_iff.1 h
  rw [CallSite.resolve_ofParts hw, CallSite.resolve_ofParts (hw.append t)]

theorem map_resolve_append (s t : List Char) :
    (findAll s).map (·.resolve (s ++ t)) = (findAll s).map (·.resolve s) :=
  List.map_congr_left fun _ h => resolve_append h t

end CallShape

theorem CallSite.findAll_sublist_append (s t : String) :
    (findAll s).Sublist (findAll (s ++ t)) := by
  unfold findAll
  rw [String.toList_append, ← CallShape.map_resolve_append s.toList t.toList]
  exact (CallShape.findAll_sublist_append s.toList t.toList).map _

/-- **A text cut short only loses calls and diagnostics.** Those of a text are among those of every
text that goes on from it, unchanged and in the same order. -/
theorem analyze_sublist_append (s t : String) (r : Registry) (k : Checks) :
    (CallSite.findAll s).Sublist (CallSite.findAll (s ++ t)) ∧
      (analyze r k s).Sublist (analyze r k (s ++ t)) := by
  have hsites := CallSite.findAll_sublist_append s t
  exact ⟨hsites, diagnoseAll_sublist r k hsites⟩

/-! ## Calls behind another text -/

namespace Text

theorem dropBytes?_append (a b : List Char) (n : Nat) :
    dropBytes? (a ++ b) (n + byteLength a) = dropBytes? b n := by
  induction a with
  | nil => rfl
  | cons c a ih =>
    rw [← ih, dropBytes?_eq_splitAt?, dropBytes?_eq_splitAt?, List.cons_append, byteLength_cons,
      Nat.add_left_comm, splitAt?_cons_utf8Size, Option.map_map]
    rfl

/-- Reading a span that was moved behind another text. -/
theorem slice_append_shift (a b : List Char) (span : Span) :
    slice (a ++ b) (span.shift (byteLength a)) = slice b span := by
  simp only [slice, slice?, Span.shift_start, Span.shift_stop, dropBytes?_append,
    Nat.add_le_add_iff_right, Nat.add_sub_add_right]

end Text

theorem Argument.ofSegment_append_shift (a b : List Char) (raw : Span) :
    ofSegment (a ++ b) (raw.shift (byteLength a)) = (ofSegment b raw).shift (byteLength a) := by
  unfold ofSegment
  rw [slice_append_shift]
  simp only [shift, Span.shift, Argument.mk.injEq, Span.mk.injEq, true_and]
  omega

theorem Span.ofPieces_add (n start pos : Nat) (ps : List (List Char)) :
    Span.ofPieces (start + n) (pos + n) ps = (Span.ofPieces start pos ps).map (Span.shift n) := by
  induction ps generalizing start pos with
  | nil => rfl
  | cons p ps ih =>
    have hpos : pos + n + byteLength p = pos + byteLength p + n := by omega
    rw [Span.ofPieces, Span.ofPieces, List.map_cons, ← ih, hpos,
      Nat.add_right_comm (pos + byteLength p) n 1]
    rfl

namespace CallShape

/-- The same call in a text that has `n` more bytes in front. -/
def shift (n : Nat) (shape : CallShape) : CallShape where
  name := shape.name.shift n
  args := shape.args.shift n
  segments := shape.segments.map (Span.shift n)

theorem resolve_append_shift (a b : List Char) (shape : CallShape) :
    (shape.shift (byteLength a)).resolve (a ++ b) = (shape.resolve b).shift (byteLength a) := by
  simp only [resolve, shift, CallSite.shift, slice_append_shift, List.map_map, CallSite.mk.injEq,
    true_and]
  split
  · rfl
  · rw [List.map_map]
    congr 1
    funext raw
    exact Argument.ofSegment_append_shift a b raw

theorem ofBody_add (n : Nat) (name : Span) (start : Nat) (body : List Char) :
    ofBody (name.shift n) (start + n) body = (ofBody name start body).shift n := by
  simp only [ofBody, shift, Span.shift, Span.ofPieces_add, CallShape.mk.injEq, Span.mk.injEq,
    true_and, and_true]
  omega

theorem behindName?_add (n : Nat) (name : Span) (pos : Nat) (cs : List Char) :
    behindName? (name.shift n) (pos + n) cs = (behindName? name pos cs).map (shift n) := by
  induction cs generalizing pos with
  | nil => rfl
  | cons c cs ih =>
    unfold behindName?
    split_ifs with hb ho
    · rw [Nat.add_right_comm, ih]
    · rw [Option.map_map, Nat.add_right_comm]
      congr 1
      funext body
      exact ofBody_add n name (pos + 1) body
    · rfl

theorem fromName?_add (n start pos : Nat) (cs : List Char) :
    fromName? (start + n) (pos + n) cs = (fromName? start pos cs).map (shift n) := by
  induction cs generalizing pos with
  | nil => rfl
  | cons c cs ih =>
    unfold fromName?
    split_ifs with hn
    · rw [Nat.add_right_comm, ih]
    · exact behindName?_add n ⟨start, pos⟩ pos (c :: cs)

/-- Counting the offsets from elsewhere moves the calls and does nothing else. -/
theorem candidates_add (n pos : Nat) (q : Quote) (afterNameChar : Bool) (cs : List Char) :
    candidates (pos + n) q afterNameChar cs =
      (candidates pos q afterNameChar cs).map (shift n) := by
  induction cs generalizing pos q afterNameChar with
  | nil => rfl
  | cons c cs ih =>
    unfold candidates
    rw [List.map_append, Nat.add_right_comm, ih]
    congr 1
    split_ifs
    · rw [fromName?_add]
      cases fromName? pos pos (c :: cs) <;> rfl
    · rfl

end CallShape

/-! ## Texts apart -/

/-- After the text the pass is outside of strings, no backslash waits for a quote and no parenthesis
is open; and the text does not end with a name or with blanks, which may follow one. -/
structure Settled (s : String) : Prop where
  outside : (s.toList.foldl CallFinder.step {}).quote.inside = false
  unescaped : (s.toList.foldl CallFinder.step {}).quote.escaped = false
  closed : (s.toList.foldl CallFinder.step {}).frames = []
  last : (Text.bytes s).getLast?.any (fun b => isNameChar b || isAsciiBlank b) = false

namespace CallFinder

@[simp] theorem pos_foldl (s : CallFinder) (cs : List Char) :
    (cs.foldl step s).pos = s.pos + byteLength cs := by
  induction cs generalizing s with
  | nil => rfl
  | cons c cs ih => rw [List.foldl_cons, ih, step_pos, byteLength_cons, Nat.add_assoc]

/-- Behind a text that does not end with a name or with blanks nothing leads up to a call. -/
theorem lead_foldl_eq_nothing {cs : List Char}
    (h : cs.getLast?.any (fun c => isNameChar c || isAsciiBlank c) = false) :
    (cs.foldl step {}).lead = .nothing ∧ (cs.foldl step {}).Coherent false := by
  rcases List.eq_nil_or_concat cs with rfl | ⟨cs, c, rfl⟩
  · exact ⟨rfl, coherent_initial⟩
  · rw [List.concat_eq_append] at h ⊢
    rw [List.getLast?_append_of_ne_nil _ (by simp)] at h
    obtain ⟨hn, hb⟩ : isNameChar c = false ∧ isAsciiBlank c = false := by simpa using h
    rw [List.foldl_append, List.foldl_cons, List.foldl_nil]
    refine ⟨?_, ?_⟩
    · simp [nextLead, hn, hb]
    · have hcoherent := coherent_step (s := cs.foldl step {}) c
      rwa [hn] at hcoherent

end CallFinder

theorem Quote.eq_initial {q : Quote} (hi : q.inside = false) (he : q.escaped = false) :
    q = {} := by
  obtain ⟨inside, escaped⟩ := q
  rw [Quote.mk.injEq]
  exact ⟨hi, he⟩

namespace Settled

variable {s : String}

theorem last_char (h : Settled s) :
    s.toList.getLast?.any (fun c => isNameChar c || isAsciiBlank c) = false := by
  have hlast := h.last
  rwa [bytes_eq_encode, getLast?_encode_any] at hlast
  intro c hc
  rw [isNameChar_of_wide hc, Bool.false_or]
  refine Bool.eq_false_iff.2 fun hb => ?_
  have hascii := ascii_of_isAsciiBlank hb
  omega

/-- Behind a settled text the pass finds what it finds from the start, further on. -/
theorem findAll_append (h : Settled s) (t : List Char) :
    CallShape.findAll (s.toList ++ t) =
      CallShape.findAll s.toList ++
        (CallShape.findAll t).map (CallShape.shift (byteLength s.toList)) := by
  obtain ⟨hlead, hcoherent⟩ := CallFinder.lead_foldl_eq_nothing h.last_char
  have hquote : (s.toList.foldl CallFinder.step {}).quote = {} :=
    Quote.eq_initial h.outside h.unescaped
  have hpos : (s.toList.foldl CallFinder.step {}).pos = 0 + byteLength s.toList :=
    CallFinder.pos_foldl {} s.toList
  -- No frame and no name is left to be completed, only names to come.
  have houtlook := CallFinder.outlook_foldl hcoherent t
  rw [CallFinder.outlook, CallFinder.held, h.closed, hlead, hquote, hpos,
    CallShape.candidates_add] at houtlook
  have hcalls : CallShape.findAll s.toList = (s.toList.foldl CallFinder.step {}).calls := by
    rw [CallShape.findAll, CallFinder.completed, h.closed]
    simp
  rw [hcalls, CallShape.findAll_eq_candidates t, CallShape.findAll, List.foldl_append, houtlook]
  simp [OpenParen.resolve]

end Settled

theorem CallSite.findAll_append_of_settled {s : String} (h : Settled s) (t : String) :
    findAll (s ++ t) = findAll s ++ (findAll t).map (CallSite.shift (byteLength s.toList)) := by
  unfold findAll
  rw [String.toList_append, h.findAll_append, List.map_append, CallShape.map_resolve_append,
    List.map_map, List.map_map]
  congr 2
  funext shape
  exact CallShape.resolve_append_shift s.toList t.toList shape

/-- **Texts apart are checked by themselves.** Behind a text after which the pass is settled the
calls and diagnostics of what follows are those it has alone, moved by the length of the text. -/
theorem analyze_append_of_settled (s t : String) (hs : Settled s) (r : Registry) (k : Checks) :
    CallSite.findAll (s ++ t) =
        CallSite.findAll s ++ (CallSite.findAll t).map (·.shift (byteLength s.toList)) ∧
      analyze r k (s ++ t) =
        analyze r k s ++ (analyze r k t).map (·.shift (byteLength s.toList)) := by
  have hsites := CallSite.findAll_append_of_settled hs t
  refine ⟨hsites, ?_⟩
  unfold analyze
  rw [hsites, diagnoseAll_append, diagnoseAll_shift]

/-- A stray closer and a bracket left open in front of it do not reach the second text. -/
theorem analyze_append_of_settled_stray :
    analyze {} {} ("f('é')])[" ++ "h(g(1))") =
      [⟨⟨0, 1⟩, .unknownFunction "f"⟩, ⟨⟨10, 11⟩, .unknownFunction "h"⟩,
        ⟨⟨12, 13⟩, .unknownFunction "g"⟩] := by
  have hsettled : Settled "f('é')])[" :=
    ⟨by decide +kernel, by decide +kernel, by decide +kernel, by decide +kernel⟩
  rw [(analyze_append_of_settled "f('é')])[" "h(g(1))" hsettled {} {}).2]
  decide +kernel

end FlowExpr
