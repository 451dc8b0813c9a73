import FlowExpr.Proofs.Call.Argument
import FlowExpr.Proofs.Call.ByteSearch
import FlowExpr.Proofs.Text.Sliceable

/-!
# Finding calls with slots

`SlotFinder` finds the calls of a text in another way than `CallFinder`. It reads bytes. It keeps a
slot for each call from its opening parenthesis on and fills it when the call is complete, so that
calls come in the order of their names without being moved. And it reads names and arguments at
once: an argument at the comma behind it, also of a call that is never completed. It *fails* where a
slice cannot be taken or a slot is not there.

**Theorem (`SlotFinder.findAll?_eq`).** It never fails, and finds what `CallFinder` finds.

**The view.** At every place between two characters the state with slots is a function of the other
one (`CallFinder.withSlots`). The slots are the calls held by the frames, outermost first, with an
empty one in front of the calls of each frame that is a call itself. A frame's slot has the number
of those before it.

**The invariant** (`CallFinder.Placed`). Slices can be taken because all offsets kept by the frames
are places that were passed: the parenthesis, the comma, and both ends of a name are ASCII, and a
byte next to an ASCII byte does not lie inside a character.
-/

namespace FlowExpr

open Text

/-! ## The finder -/

/-- The argument written in a segment of a text. Fails if the segment cannot be sliced. -/
def Argument.ofSegment? (source : List Char) (raw : Span) : Option Argument :=
  (slice? source raw).map (ofPiece raw.start)

/-- An open parenthesis, with a slot for its call. -/
structure SlotFrame where
  /-- The slot and the name of the call, if it opens one. -/
  call : Option (Nat × Span)
  /-- The offset just behind it. -/
  start : Nat
  /-- Where the current segment of its argument list starts. -/
  segmentStart : Nat
  /-- Brackets and braces directly inside it. -/
  depth : Depth := {}
  /-- The arguments before the current segment, in order. -/
  arguments : List Argument := []

/-- The state of the finder between two bytes. -/
structure SlotFinder where
  /-- Bytes read. -/
  pos : Nat := 0
  quote : Quote := {}
  lead : Lead := .nothing
  /-- The open parentheses, innermost first. -/
  frames : List SlotFrame := []
  /-- One slot for each call opened so far, empty until the call is complete. -/
  slots : List (Option CallSite) := []

namespace SlotFrame

/-- A comma at offset `pos` ends an argument of a call if brackets and braces are level. -/
def comma? (source : List Char) (f : SlotFrame) (pos : Nat) : Option SlotFrame :=
  if f.call.isSome && f.depth.isLevel then
    (Argument.ofSegment? source ⟨f.segmentStart, pos⟩).map fun argument =>
      { f with segmentStart := pos + 1, arguments := f.arguments ++ [argument] }
  else some f

/-- The call of the given name that is complete when the parenthesis closes at offset `pos`. -/
def site? (source : List Char) (f : SlotFrame) (name : Span) (pos : Nat) : Option CallSite := do
  let list ← slice? source ⟨f.start, pos⟩
  let arguments ←
    if isAllBlank list then some []
    else (Argument.ofSegment? source ⟨f.segmentStart, pos⟩).map (f.arguments ++ [·])
  let text ← slice? source name
  return ⟨String.ofList text, name, ⟨f.start, pos⟩, arguments⟩

end SlotFrame

namespace SlotFinder

/-- Fills a slot, which has to be there. -/
def fill? (slots : List (Option CallSite)) (slot : Nat) (site : CallSite) :
    Option (List (Option CallSite)) :=
  if slot < slots.length then some (slots.set slot (some site)) else none

/-- Opens a parenthesis, and a slot if a name leads up to it. -/
def openParen (s : SlotFinder) : SlotFinder :=
  match s.lead.name? s.pos with
  | some name =>
    { s with
      frames := ⟨some (s.slots.length, name), s.pos + 1, s.pos + 1, {}, []⟩ :: s.frames
      slots := s.slots ++ [none] }
  | none => { s with frames := ⟨none, s.pos + 1, s.pos + 1, {}, []⟩ :: s.frames }

/-- Closes the innermost parenthesis, if one is open. -/
def closeParen? (source : List Char) (s : SlotFinder) : Option SlotFinder :=
  match s.frames with
  | [] => some s
  | top :: rest =>
    match top.call with
    | none => some { s with frames := rest }
    | some (slot, name) => do
      let site ← top.site? source name s.pos
      let slots ← fill? s.slots slot site
      return { s with frames := rest, slots }

/-- Changes the innermost frame, if a parenthesis is open. -/
def modifyTop? (s : SlotFinder) (f : SlotFrame → Option SlotFrame) : Option SlotFinder :=
  match s.frames with
  | top :: rest => (f top).map fun top => { s with frames := top :: rest }
  | [] => some s

/-- What a structural byte does to frames and slots. -/
def act? (source : List Char) (s : SlotFinder) (b : Char) : Option SlotFinder :=
  if b = '(' then some s.openParen
  else if b = ')' then s.closeParen? source
  else if b = ',' then s.modifyTop? (·.comma? source s.pos)
  else if b = '[' || b = ']' || b = '{' || b = '}' then
    s.modifyTop? fun f => some { f with depth := f.depth.track b }
  else some s

/-- One more byte. What leads up to a call does not depend on the slots. -/
def step? (source : List Char) (s : SlotFinder) (b : Char) : Option SlotFinder :=
  (if s.quote.isStructural b then s.act? source b else some s).map fun acted =>
    { acted with
      pos := s.pos + 1
      quote := s.quote.next b
      lead := ({ pos := s.pos, quote := s.quote, lead := s.lead } : CallFinder).nextLead b }

/-- All complete calls of a text, found with slots. -/
def findAll? (source : String) : Option (List CallSite) :=
  ((bytes source).foldlM (step? source.toList) {}).map fun s => s.slots.filterMap id

end SlotFinder

/-! ## Offsets that were passed -/

/-- The offsets kept about what leads up to a call are places that were passed. -/
def Lead.Placed (source : List Char) (pos : Nat) : Lead → Prop
  | .nothing => True
  | .word start _ => IsPlace source start ∧ start ≤ pos
  | .named name => Sliceable source name

/-- The offsets kept by a frame are places that were passed. -/
structure OpenParen.Placed (source : List Char) (pos : Nat) (f : OpenParen) : Prop where
  name : ∀ n, f.name = some n → Sliceable source n
  start : IsPlace source f.start
  start_le : f.start ≤ pos
  segmentStart : IsPlace source f.segmentStart
  segmentStart_le : f.segmentStart ≤ pos

/-- All offsets kept behind the text `done` are places of the text. -/
structure CallFinder.Placed (source done : List Char) (s : CallFinder) : Prop where
  pos : s.pos = byteLength done
  lead : s.lead.Placed source s.pos
  frames : ∀ f ∈ s.frames, f.Placed source s.pos

theorem OpenParen.Placed.mono {source : List Char} {pos pos' : Nat} {f : OpenParen}
    (h : f.Placed source pos) (hle : pos ≤ pos') : f.Placed source pos' :=
  ⟨h.name, h.start, h.start_le.trans hle, h.segmentStart, h.segmentStart_le.trans hle⟩

theorem Lead.Placed.sliceable {source : List Char} {pos : Nat} {l : Lead} (h : l.Placed source pos)
    (hpos : IsPlace source pos) {name : Span} (hname : l.name? pos = some name) :
    Sliceable source name := by
  match l, h, hname with
  | .word start false, h, hname =>
    obtain rfl := Option.some.inj hname
    exact h.1.sliceable hpos h.2
  | .named _, h, hname =>
    obtain rfl := Option.some.inj hname
    exact h

namespace CallFinder

variable {source done rest : List Char} {s : CallFinder} {c : Char}

theorem placed_initial (source : List Char) : Placed source [] {} :=
  ⟨rfl, trivial, fun _ hf => absurd hf List.not_mem_nil⟩

theorem Placed.isPlace_pos (h : Placed source done s) (hsource : source = done ++ rest) :
    IsPlace source s.pos := by
  rw [h.pos, hsource]
  exact isPlace_append done rest

theorem Placed.isPlace_behind (h : Placed source done s) (hsource : source = done ++ c :: rest) :
    IsPlace source (s.pos + c.utf8Size) := by
  rw [hsource, h.pos]
  exact Text.isPlace_behind done c rest

theorem placed_nextLead (h : Placed source done s) (hsource : source = done ++ c :: rest) :
    (s.nextLead c).Placed source (s.pos + c.utf8Size) := by
  have hpos := h.isPlace_pos hsource
  have hlead := h.lead
  unfold nextLead
  split_ifs
  · trivial
  · -- A run of name characters goes on, or starts here.
    cases hl : s.lead with
    | word start digitLed =>
      rw [hl] at hlead
      exact ⟨hlead.1, hlead.2.trans (Nat.le_add_right _ _)⟩
    | nothing => exact ⟨hpos, Nat.le_add_right _ _⟩
    | named name => exact ⟨hpos, Nat.le_add_right _ _⟩
  · unfold Lead.afterBlank
    cases hname : s.lead.name? s.pos with
    | some name => exact hlead.sliceable hpos hname
    | none => trivial
  · trivial

theorem placed_openParen (h : Placed source done s) (hsource : source = done ++ '(' :: rest) :
    ∀ f ∈ s.openParen.frames, f.Placed source (s.pos + 1) := by
  have hbehind : IsPlace source (s.pos + 1) := h.isPlace_behind hsource
  intro f hf
  rcases List.mem_cons.1 hf with rfl | hf
  · exact ⟨fun n hn => h.lead.sliceable (h.isPlace_pos hsource) hn, hbehind, Nat.le_refl _, hbehind,
      Nat.le_refl _⟩
  · exact (h.frames f hf).mono (Nat.le_succ _)

theorem placed_closeParen (h : Placed source done s) :
    ∀ f ∈ s.closeParen.frames, f.Placed source s.pos := by
  have hframes := h.frames
  unfold closeParen
  split
  · rename_i top outer rest hs
    rw [hs] at hframes
    intro f hf
    rcases List.mem_cons.1 hf with rfl | hf
    · obtain ⟨hname, hstart, hle, hsegment, hsegmentle⟩ := hframes outer (by simp)
      exact ⟨hname, hstart, hle, hsegment, hsegmentle⟩
    · exact hframes f (by simp [hf])
  · exact fun f hf => absurd hf List.not_mem_nil
  · exact hframes

theorem placed_modifyTop {pos pos' : Nat} {g : OpenParen → OpenParen} (hle : pos ≤ pos')
    (hs : ∀ f ∈ s.frames, f.Placed source pos)
    (hg : ∀ f : OpenParen, f.Placed source pos → (g f).Placed source pos') :
    ∀ f ∈ (s.modifyTop g).frames, f.Placed source pos' := by
  unfold modifyTop
  split
  · rename_i top rest hframes
    rw [hframes] at hs
    intro f hf
    rcases List.mem_cons.1 hf with rfl | hf
    · exact hg top (hs top List.mem_cons_self)
    · exact (hs f (List.mem_cons_of_mem _ hf)).mono hle
  · exact fun f hf => (hs f hf).mono hle

theorem placed_comma {f : OpenParen} {pos : Nat} (hbehind : IsPlace source (pos + 1))
    (h : f.Placed source pos) : (f.comma pos).Placed source (pos + 1) := by
  unfold OpenParen.comma
  split_ifs
  · exact ⟨h.name, h.start, h.start_le.trans (Nat.le_succ _), hbehind, Nat.le_refl _⟩
  · exact h.mono (Nat.le_succ _)

theorem placed_act (h : Placed source done s) (hsource : source = done ++ c :: rest) :
    ∀ f ∈ (s.act c).frames, f.Placed source (s.pos + c.utf8Size) := by
  have hle : s.pos ≤ s.pos + c.utf8Size := Nat.le_add_right _ _
  unfold act
  split_ifs with hopen hclose hcomma
  · subst hopen
    exact placed_openParen h hsource
  · exact fun f hf => (placed_closeParen h f hf).mono hle
  · subst hcomma
    exact placed_modifyTop hle h.frames fun f hf => placed_comma (h.isPlace_behind hsource) hf
  · refine placed_modifyTop hle h.frames fun f hf => ?_
    obtain ⟨hname, hstart, hstartle, hsegment, hsegmentle⟩ := hf.mono hle
    exact ⟨hname, hstart, hstartle, hsegment, hsegmentle⟩
  · exact fun f hf => (h.frames f hf).mono hle

/-- Offsets stay places by one more character. -/
theorem placed_step (done : List Char) (c : Char) (rest : List Char) (s : CallFinder)
    (hsource : source = done ++ c :: rest) (h : Placed source done s) :
    Placed source (done ++ [c]) (s.step c) := by
  refine ⟨?_, placed_nextLead h hsource, ?_⟩
  · rw [step_pos, h.pos, byteLength_append]
    rfl
  · unfold step
    split_ifs
    · exact placed_act h hsource
    · exact fun f hf => (h.frames f hf).mono (Nat.le_add_right _ _)

end CallFinder

/-! ## The state with slots -/

/-- The calls of a list, each in a slot. -/
def CallShape.filled (source : List Char) (shapes : List CallShape) : List (Option CallSite) :=
  shapes.map fun shape => some (shape.resolve source)

theorem CallShape.filled_append (source : List Char) (xs ys : List CallShape) :
    filled source (xs ++ ys) = filled source xs ++ filled source ys :=
  List.map_append

namespace OpenParen

/-- The frame with its slot, read from the text. -/
def withSlot (source : List Char) (slot : Nat) (f : OpenParen) : SlotFrame where
  call := f.name.map fun name => (slot, name)
  start := f.start
  segmentStart := f.segmentStart
  depth := f.depth
  arguments := f.segments.map (Argument.ofSegment source)

/-- The empty slot of the call of a frame. -/
def ownSlot (f : OpenParen) : List (Option CallSite) := if f.name.isSome then [none] else []

/-- The slots of completed calls and of frames, outermost first. -/
def slots (source : List Char) (base : List CallShape) : List OpenParen → List (Option CallSite)
  | [] => CallShape.filled source base
  | f :: outer => slots source base outer ++ (f.ownSlot ++ CallShape.filled source f.calls)

/-- The frames, each with the first slot behind those around it. -/
def withSlots (source : List Char) (base : List CallShape) : List OpenParen → List SlotFrame
  | [] => []
  | f :: outer => f.withSlot source (slots source base outer).length :: withSlots source base outer

end OpenParen

/-- The state with slots, between two characters. -/
def CallFinder.withSlots (source : List Char) (s : CallFinder) : SlotFinder where
  pos := s.pos
  quote := s.quote
  lead := s.lead
  frames := OpenParen.withSlots source s.calls s.frames
  slots := OpenParen.slots source s.calls s.frames

theorem Argument.ofSegment?_eq {source : List Char} {raw : Span} (h : Sliceable source raw) :
    ofSegment? source raw = some (ofSegment source raw) := by
  have hslice := h.slice?_eq
  obtain ⟨x, z, hsource, hstart, hstop⟩ := exists_of_slice?_eq_some hslice
  have hsegment := ofSegment_append x (slice source raw) z
  rw [← hsource, hstart, ← hstart, hstop, hstart] at hsegment
  rw [ofSegment?, hslice, Option.map_some, hsegment]

namespace OpenParen

variable {source : List Char} {pos slot : Nat} {f : OpenParen}

theorem comma_name (f : OpenParen) (pos : Nat) : (f.comma pos).name = f.name := by
  unfold comma
  split_ifs <;> rfl

theorem comma_calls (f : OpenParen) (pos : Nat) : (f.comma pos).calls = f.calls := by
  unfold comma
  split_ifs <;> rfl

/-- A comma reads the argument in front of it. -/
theorem comma?_withSlot (hf : f.Placed source pos) (hpos : IsPlace source pos) :
    (f.withSlot source slot).comma? source pos = some ((f.comma pos).withSlot source slot) := by
  have hread := Argument.ofSegment?_eq (hf.segmentStart.sliceable hpos hf.segmentStart_le)
  have hcall : (f.withSlot source slot).call.isSome = f.name.isSome := Option.isSome_map
  have hdepth : (f.withSlot source slot).depth = f.depth := rfl
  unfold SlotFrame.comma? comma
  rw [hcall, hdepth]
  by_cases hcut : (f.name.isSome && f.depth.isLevel) = true
  · rw [if_pos hcut, if_pos hcut]
    simp [withSlot, hread]
  · rw [if_neg hcut, if_neg hcut]

/-- The call that a frame completes is read from the text. -/
theorem site?_withSlot (hf : f.Placed source pos) (hpos : IsPlace source pos) {name : Span}
    (hname : f.name = some name) (slot : Nat) :
    (f.withSlot source slot).site? source name pos =
      some (CallShape.resolve source
        ⟨name, ⟨f.start, pos⟩, f.segments ++ [⟨f.segmentStart, pos⟩]⟩) := by
  have hlist := (hf.start.sliceable hpos hf.start_le).slice?_eq
  have hlast := Argument.ofSegment?_eq (hf.segmentStart.sliceable hpos hf.segmentStart_le)
  have htext := (hf.name name hname).slice?_eq
  unfold SlotFrame.site? withSlot CallShape.resolve
  by_cases hblank : isAllBlank (slice source ⟨f.start, pos⟩) = true
  · simp [hlist, htext, hblank]
  · simp [hlist, hlast, htext, hblank]

end OpenParen

/-! ## One step -/

namespace CallFinder

open OpenParen (slots withSlots)

variable {source done rest : List Char} {s : CallFinder} {c : Char}

theorem openParen_withSlots (s : CallFinder) :
    (s.withSlots source).openParen = s.openParen.withSlots source := by
  unfold SlotFinder.openParen
  have hname : (s.withSlots source).lead.name? (s.withSlots source).pos = s.lead.name? s.pos := rfl
  rw [hname]
  cases hlead : s.lead.name? s.pos <;>
    simp [CallFinder.withSlots, openParen, OpenParen.opened, hlead, slots, OpenParen.withSlots,
      OpenParen.withSlot, OpenParen.ownSlot, CallShape.filled]

/-- Closing a parenthesis hands its calls to what is around it. -/
theorem closeParen_withSlots {top : OpenParen} {outer : List OpenParen}
    (hs : s.frames = top :: outer) :
    s.closeParen.withSlots source =
      { s.withSlots source with
        frames := OpenParen.withSlots source s.calls outer
        slots := slots source s.calls outer ++ CallShape.filled source (top.close s.pos) } := by
  unfold closeParen CallFinder.withSlots
  rw [hs]
  cases outer with
  | nil => simp [slots, OpenParen.withSlots, CallShape.filled_append]
  | cons next rest =>
    simp [slots, OpenParen.withSlots, OpenParen.withSlot, OpenParen.ownSlot,
      CallShape.filled_append]

/-- A complete call goes to the slot that was kept for it. -/
theorem fill?_own (front behind : List (Option CallSite)) (site : CallSite) :
    SlotFinder.fill? (front ++ ([none] ++ behind)) front.length site =
      some (front ++ some site :: behind) := by
  rw [SlotFinder.fill?, if_pos (by simp), List.set_append_right _ _ (Nat.le_refl _), Nat.sub_self]
  rfl

theorem closeParen?_withSlots (h : Placed source done s) (hpos : IsPlace source s.pos) :
    (s.withSlots source).closeParen? source = some (s.closeParen.withSlots source) := by
  cases hs : s.frames with
  | nil => simp [SlotFinder.closeParen?, CallFinder.withSlots, OpenParen.withSlots, closeParen, hs]
  | cons top outer =>
    have htop := h.frames top (by rw [hs]; exact List.mem_cons_self)
    have hframes : (s.withSlots source).frames =
        top.withSlot source (slots source s.calls outer).length ::
          OpenParen.withSlots source s.calls outer := by
      rw [CallFinder.withSlots, hs]
      rfl
    have hslots : (s.withSlots source).slots =
        slots source s.calls outer ++ (top.ownSlot ++ CallShape.filled source top.calls) := by
      rw [CallFinder.withSlots, hs]
      rfl
    rw [SlotFinder.closeParen?, hframes, closeParen_withSlots hs, OpenParen.close]
    cases hname : top.name with
    | none =>
      have hcall (slot : Nat) : (top.withSlot source slot).call = none := by
        rw [OpenParen.withSlot, hname, Option.map_none]
      have hown : top.ownSlot = [] := by rw [OpenParen.ownSlot, hname]; rfl
      rw [hown, List.nil_append] at hslots
      simp only [hcall, ← hslots]
    | some name =>
      have hcall (slot : Nat) : (top.withSlot source slot).call = some (slot, name) := by
        rw [OpenParen.withSlot, hname, Option.map_some]
      have hown : top.ownSlot = [none] := by rw [OpenParen.ownSlot, hname]; rfl
      have hsite := OpenParen.site?_withSlot htop hpos hname (slots source s.calls outer).length
      have hsitepos : (s.withSlots source).pos = s.pos := rfl
      rw [hown] at hslots
      simp only [hcall, hsitepos, hsite, hslots, fill?_own, Option.bind_eq_bind, Option.bind_some]
      rfl

theorem modifyTop?_withSlots {g : OpenParen → OpenParen} {g? : SlotFrame → Option SlotFrame}
    (hname : ∀ f, (g f).name = f.name) (hcalls : ∀ f, (g f).calls = f.calls)
    (hg : ∀ f ∈ s.frames, ∀ slot, g? (f.withSlot source slot) = some ((g f).withSlot source slot)) :
    (s.withSlots source).modifyTop? g? = some ((s.modifyTop g).withSlots source) := by
  cases hs : s.frames with
  | nil => simp [SlotFinder.modifyTop?, CallFinder.withSlots, OpenParen.withSlots, modifyTop, hs]
  | cons top outer =>
    have hslot := hg top (by rw [hs]; exact List.mem_cons_self)
    simp [SlotFinder.modifyTop?, CallFinder.withSlots, OpenParen.withSlots, modifyTop, hs, hslot,
      slots, OpenParen.ownSlot, hname, hcalls]

theorem act?_withSlots (h : Placed source done s) (hpos : IsPlace source s.pos) (c : Char) :
    (s.withSlots source).act? source c = some ((s.act c).withSlots source) := by
  unfold SlotFinder.act? act
  split_ifs
  · rw [openParen_withSlots]
  · exact closeParen?_withSlots h hpos
  · exact modifyTop?_withSlots (·.comma_name s.pos) (·.comma_calls s.pos) fun f hf slot =>
      OpenParen.comma?_withSlot (h.frames f hf) hpos
  · exact modifyTop?_withSlots (fun _ => rfl) (fun _ => rfl) fun _ _ _ => rfl
  · rfl

/-- An ASCII character is one byte for the finder with slots. -/
theorem step?_withSlots (h : Placed source done s) (hsource : source = done ++ c :: rest)
    (hc : c.toNat < 128) :
    (s.withSlots source).step? source c = some ((s.step c).withSlots source) := by
  have hquote : (s.withSlots source).quote = s.quote := rfl
  unfold SlotFinder.step? step
  rw [hquote, utf8Size_of_ascii hc]
  by_cases hstruct : s.quote.isStructural c = true
  · rw [if_pos hstruct, if_pos hstruct, act?_withSlots h (h.isPlace_pos hsource)]
    rfl
  · rw [if_neg hstruct, if_neg hstruct]
    rfl

end CallFinder

/-! ## Wide characters -/

namespace CallFinder

variable {c : Char}

theorem nextLead_of_wide (hc : 128 ≤ c.toNat) (s : CallFinder) : s.nextLead c = .nothing := by
  have hblank : isAsciiBlank c = false := by
    by_contra hb
    have hascii := ascii_of_isAsciiBlank (Bool.not_eq_false _ ▸ hb)
    omega
  simp [nextLead, isNameChar_of_wide hc, hblank]

theorem act_of_wide (hc : 128 ≤ c.toNat) (s : CallFinder) : s.act c = s := by
  have hne {d : Char} (hd : d.toNat < 128) : c ≠ d := ne_of_wide hc hd
  unfold act
  simp [hne]

end CallFinder

namespace SlotFinder

/-- Behind `n` bytes that mean nothing. -/
def skip (n : Nat) (t : SlotFinder) : SlotFinder :=
  { t with pos := t.pos + n, quote := { t.quote with escaped := false }, lead := .nothing }

theorem skip_skip (n : Nat) (t : SlotFinder) : (t.skip 1).skip (n + 1) = t.skip (n + 2) := by
  simp only [skip]
  congr 1
  omega

theorem act?_of_wide {source : List Char} {b : Char} (hb : 128 ≤ b.toNat) (t : SlotFinder) :
    t.act? source b = some t := by
  have hne {d : Char} (hd : d.toNat < 128) : b ≠ d := ne_of_wide hb hd
  simp [act?, hne]

theorem step?_of_wide {source : List Char} (b : Char) (t : SlotFinder) (hb : 128 ≤ b.toNat) :
    t.step? source b = some (t.skip 1) := by
  unfold step? skip
  rw [act?_of_wide hb, ite_self, Option.map_some, CallFinder.nextLead_of_wide hb,
    Quote.next_of_wide hb]

end SlotFinder

/-! ## The pass -/

namespace CallFinder

open OpenParen (slots)

variable {source : List Char} {c : Char}

/-- All that a wide character does is to end the effect of a backslash and a name. -/
theorem withSlots_step_of_wide (hc : 128 ≤ c.toNat) (s : CallFinder) :
    (s.step c).withSlots source = (s.withSlots source).skip c.utf8Size := by
  unfold step
  rw [act_of_wide hc, ite_self, nextLead_of_wide hc, Quote.next_of_wide hc]
  rfl

/-- One character, byte by byte. -/
theorem foldlM_charBytes_withSlots (done : List Char) (c : Char) (rest : List Char) (s : CallFinder)
    (hsource : source = done ++ c :: rest) (h : Placed source done s) :
    (charBytes c).foldlM (SlotFinder.step? source) (s.withSlots source) =
      some ((s.step c).withSlots source) := by
  rw [foldlM_charBytes SlotFinder.step?_of_wide SlotFinder.skip_skip]
  by_cases hc : c.toNat < 128
  · rw [if_pos hc, step?_withSlots h hsource hc]
  · rw [if_neg hc, withSlots_step_of_wide (Nat.le_of_not_lt hc)]

/-- The filled slots are the completed calls. -/
theorem filterMap_slots (source : List Char) (base : List CallShape) (frames : List OpenParen) :
    (slots source base frames).filterMap id =
      (base ++ frames.reverse.flatMap (·.calls)).map (·.resolve source) := by
  have hfilled (shapes : List CallShape) :
      (CallShape.filled source shapes).filterMap id = shapes.map (·.resolve source) := by
    simp [CallShape.filled, List.filterMap_map]
  have hown (f : OpenParen) : f.ownSlot.filterMap id = [] := by
    unfold OpenParen.ownSlot
    split_ifs <;> rfl
  induction frames with
  | nil => rw [slots, hfilled, List.reverse_nil, List.flatMap_nil, List.append_nil]
  | cons f outer ih =>
    rw [slots, List.filterMap_append, ih, List.filterMap_append, hown, hfilled, List.nil_append,
      ← List.map_append, List.reverse_cons, List.flatMap_append, List.append_assoc,
      List.flatMap_singleton]

end CallFinder

/-- **Every slice can be taken and every slot is there**, and the calls found are the same. -/
theorem SlotFinder.findAll?_eq (source : String) :
    findAll? source = some (CallSite.findAll source) := by
  have hinitial : (({} : CallFinder).withSlots source.toList) = {} := rfl
  have hrun := (foldlM_encode CallFinder.placed_step CallFinder.foldlM_charBytes_withSlots
    (List.nil_append _).symm (CallFinder.placed_initial source.toList)).1
  rw [hinitial] at hrun
  rw [findAll?, bytes_eq_encode, hrun, Option.map_some]
  exact congrArg some (CallFinder.filterMap_slots _ _ _)

end FlowExpr
