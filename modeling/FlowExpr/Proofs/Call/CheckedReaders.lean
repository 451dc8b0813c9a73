import FlowExpr.Call.Arguments
import FlowExpr.Call.NameAt
import FlowExpr.Proofs.Call.SlotFinder
import FlowExpr.Proofs.Text.Names

/-!
# Readers that could fail

Three readers take slices of a text at offsets they found by comparing bytes: the finder of calls
(`SlotFinder`), the cutter of argument lists (`Argument.cutList?`) and the reader of the name at a
cursor (`nameAtByte?`). Each is written so that it fails if a slice cannot be taken.

**Theorem (`every_slice_taken`).** None of them fails, on any text, and each gives what is read by
characters. A name is read at an offset exactly if the offset touches a longest run of name bytes
that does not start with a digit (`NameRun`).

The cutter carries the same invariant as the finder: where a segment starts is a place that was
passed. The reader of a name carries none, and the offset it is given need not be a place. But the
bytes of a name are ASCII, so they are characters of the text, and the run that was found by bytes
is a run of the text (`nameRun_bytes_iff`). Inside a wide character there is no such run.
-/

namespace FlowExpr

open Text

/-! ## Cutting an argument list -/

/-- How far a text has been cut, with the arguments read so far. -/
structure ArgumentReader where
  /-- Bytes read. -/
  pos : Nat := 0
  quote : Quote := {}
  depth : Depth := {}
  /-- Where the current segment starts. -/
  segmentStart : Nat := 0
  /-- The arguments before the current segment, in order. -/
  arguments : List Argument := []

namespace ArgumentReader

/-- One more byte. A comma that cuts reads the argument in front of it. -/
def step? (text : List Char) (s : ArgumentReader) (b : Char) : Option ArgumentReader :=
  let moved := { s with pos := s.pos + 1, quote := s.quote.next b }
  if s.quote.isStructural b then
    if b = ',' && s.depth.isLevel then
      (Argument.ofSegment? text ⟨s.segmentStart, s.pos⟩).map fun argument =>
        { moved with segmentStart := s.pos + 1, arguments := s.arguments ++ [argument] }
    else some { moved with depth := s.depth.track b }
  else some moved

/-- Behind `n` bytes that mean nothing. -/
def skip (n : Nat) (s : ArgumentReader) : ArgumentReader :=
  { s with pos := s.pos + n, quote := { s.quote with escaped := false } }

theorem skip_skip (n : Nat) (s : ArgumentReader) : (s.skip 1).skip (n + 1) = s.skip (n + 2) := by
  simp only [skip]
  congr 1
  omega

end ArgumentReader

/-- The arguments of a text, read byte by byte. Fails if a segment cannot be sliced. -/
def Argument.cutList? (args : String) (base : Nat) : Option (List Argument) :=
  if isAllBlank args.toList then some []
  else do
    let s ← (bytes args).foldlM (ArgumentReader.step? args.toList) {}
    let last ← ofSegment? args.toList ⟨s.segmentStart, (bytes args).length⟩
    return (s.arguments ++ [last]).map (·.shift base)

theorem Depth.track_of_wide {c : Char} (hc : 128 ≤ c.toNat) (n : Depth) : n.track c = n := by
  have hne {d : Char} (hd : d.toNat < 128) : c ≠ d := ne_of_wide hc hd
  simp [track, hne]

namespace ArgumentReader

theorem step?_of_wide {text : List Char} (b : Char) (s : ArgumentReader) (hb : 128 ≤ b.toNat) :
    s.step? text b = some (s.skip 1) := by
  have hcomma : b ≠ ',' := ne_of_wide hb (by decide)
  simp [step?, skip, hcomma, Depth.track_of_wide hb, Quote.next_of_wide hb]

end ArgumentReader

namespace ArgumentCutter

variable {text done rest : List Char} {s : ArgumentCutter} {c : Char}

/-- The current segment starts at a place that was passed. -/
structure Placed (text done : List Char) (s : ArgumentCutter) : Prop where
  pos : s.pos = byteLength done
  segmentStart : IsPlace text s.segmentStart
  segmentStart_le : s.segmentStart ≤ s.pos

theorem placed_initial (text : List Char) : Placed text [] {} :=
  ⟨rfl, isPlace_append [] text, Nat.le_refl _⟩

theorem placed_step (done : List Char) (c : Char) (rest : List Char) (s : ArgumentCutter)
    (htext : text = done ++ c :: rest) (h : Placed text done s) :
    Placed text (done ++ [c]) (s.step c) := by
  have hpos : s.pos + c.utf8Size = byteLength (done ++ [c]) := by
    rw [h.pos, byteLength_append]
    rfl
  have hbehind : IsPlace text (s.pos + c.utf8Size) := by
    rw [h.pos, htext]
    exact isPlace_behind done c rest
  have hle : s.segmentStart ≤ s.pos + c.utf8Size := h.segmentStart_le.trans (Nat.le_add_right _ _)
  unfold step
  split_ifs
  · exact ⟨hpos, hbehind, Nat.le_refl _⟩
  · exact ⟨hpos, h.segmentStart, hle⟩
  · exact ⟨hpos, h.segmentStart, hle⟩

theorem Placed.sliceable (h : Placed text done s) (htext : text = done ++ rest) :
    Sliceable text ⟨s.segmentStart, s.pos⟩ := by
  have hpos : IsPlace text s.pos := by
    rw [h.pos, htext]
    exact isPlace_append done rest
  exact h.segmentStart.sliceable hpos h.segmentStart_le

/-- The state with the arguments of its segments, between two characters. -/
def withArguments (text : List Char) (s : ArgumentCutter) : ArgumentReader where
  pos := s.pos
  quote := s.quote
  depth := s.depth
  segmentStart := s.segmentStart
  arguments := s.segments.map (Argument.ofSegment text)

theorem step?_withArguments (h : Placed text done s) (htext : text = done ++ c :: rest)
    (hc : c.toNat < 128) :
    (s.withArguments text).step? text c = some ((s.step c).withArguments text) := by
  have hread := Argument.ofSegment?_eq (h.sliceable htext)
  have hsize := utf8Size_of_ascii hc
  unfold ArgumentReader.step? step withArguments
  by_cases hstruct : s.quote.isStructural c = true
  · by_cases hcut : (decide (c = ',') && s.depth.isLevel) = true
    · simp only [hstruct, hcut, if_true, hread, hsize, Option.map_some, List.map_append,
        List.map_cons, List.map_nil]
    · simp only [hstruct, hcut, if_true, hsize, Bool.false_eq_true, if_false]
  · simp only [hstruct, hsize, Bool.false_eq_true, if_false]

theorem withArguments_step_of_wide (hc : 128 ≤ c.toNat) (s : ArgumentCutter) :
    (s.step c).withArguments text = (s.withArguments text).skip c.utf8Size := by
  have hcomma : c ≠ ',' := ne_of_wide hc (by decide)
  simp [step, withArguments, ArgumentReader.skip, hcomma, Depth.track_of_wide hc,
    Quote.next_of_wide hc]

/-- One character, byte by byte. -/
theorem foldlM_charBytes_withArguments (done : List Char) (c : Char) (rest : List Char)
    (s : ArgumentCutter) (htext : text = done ++ c :: rest) (h : Placed text done s) :
    (charBytes c).foldlM (ArgumentReader.step? text) (s.withArguments text) =
      some ((s.step c).withArguments text) := by
  rw [foldlM_charBytes ArgumentReader.step?_of_wide ArgumentReader.skip_skip]
  by_cases hc : c.toNat < 128
  · rw [if_pos hc, step?_withArguments h htext hc]
  · rw [if_neg hc, withArguments_step_of_wide (Nat.le_of_not_lt hc)]

end ArgumentCutter

/-- Every segment of an argument list can be sliced. -/
theorem Argument.cutList?_eq (args : String) (base : Nat) :
    cutList? args base = some (cutList args base) := by
  have hinitial : ({} : ArgumentCutter).withArguments args.toList = {} := rfl
  obtain ⟨hrun, hplaced⟩ := foldlM_encode ArgumentCutter.placed_step
    ArgumentCutter.foldlM_charBytes_withArguments (List.nil_append _).symm
    (ArgumentCutter.placed_initial args.toList)
  have hlast := ofSegment?_eq (hplaced.sliceable (List.append_nil _).symm)
  rw [hinitial, ← bytes_eq_encode] at hrun
  have hend : (bytes args).length = (args.toList.foldl ArgumentCutter.step {}).pos := by
    rw [bytes_eq_encode, length_encode, hplaced.pos]
  unfold cutList? cutList
  by_cases hblank : isAllBlank args.toList = true
  · rw [if_pos hblank]
    simp only [hblank, if_true]
  · rw [if_neg hblank, hrun, hend]
    simp only [hblank, Bool.false_eq_true, if_false, Option.bind_eq_bind, Option.bind_some,
      ArgumentCutter.withArguments, hlast]
    simp [ArgumentCutter.finish]

/-! ## The name at a cursor -/

/-- The span of the name at an offset, found by going both ways over name bytes. -/
def nameSpanAt? (bs : List Char) (offset : Nat) : Option Span :=
  let start := offset - ((bs.take offset).reverse.takeWhile isNameChar).length
  let stop := ByteSearch.runEnd isNameChar bs offset
  if bs.length < offset || start = stop || bs[start]?.any Char.isDigit then none
  else some ⟨start, stop⟩

/-- The name at an offset, found by its bytes. Fails if the name cannot be sliced. -/
def nameAtByte? (source : String) (offset : Nat) : Option (Option (Span × String)) :=
  (nameSpanAt? (bytes source) offset).mapM fun span =>
    (slice? source.toList span).map fun name => (span, String.ofList name)

/-! ## Longest runs -/

/-- All of `run` is name characters, and what is around it is not. -/
structure LongestRun (before run behind : List Char) : Prop where
  name_chars : ∀ c ∈ run, isNameChar c = true
  boundary : before.getLast?.any isNameChar = false
  stops : behind.head?.any isNameChar = false

/-- Every cut of a text is in the middle of such a run, which may be empty. -/
theorem exists_longestRun (front rest : List Char) :
    ∃ before u v behind, front = before ++ u ∧ rest = v ++ behind ∧
      LongestRun before (u ++ v) behind := by
  have hhead (cs : List Char) : (cs.dropWhile isNameChar).head?.any isNameChar = false := by
    have hnot := List.head?_dropWhile_not isNameChar cs
    cases hcs : (cs.dropWhile isNameChar).head? with
    | none => rfl
    | some c =>
      rw [hcs] at hnot
      exact hnot
  refine ⟨(front.reverse.dropWhile isNameChar).reverse,
    (front.reverse.takeWhile isNameChar).reverse, rest.takeWhile isNameChar,
    rest.dropWhile isNameChar, ?_, List.takeWhile_append_dropWhile.symm, ?_, ?_, ?_⟩
  · rw [← List.reverse_append, List.takeWhile_append_dropWhile, List.reverse_reverse]
  · intro c hc
    rcases List.mem_append.1 hc with hc | hc
    · exact List.all_eq_true.1 List.all_takeWhile c (List.mem_reverse.1 hc)
    · exact List.all_eq_true.1 List.all_takeWhile c hc
  · rw [List.getLast?_reverse]
    exact hhead front.reverse
  · exact hhead rest

theorem head?_encode_any {p : Char → Bool} (hp : ∀ c, 128 ≤ c.toNat → p c = false)
    (cs : List Char) : (encode cs).head?.any p = cs.head?.any p := by
  cases cs with
  | nil => rfl
  | cons c cs =>
    rw [encode_cons, List.head?_append_of_ne_nil _ (Level.charBytes_ne_nil c)]
    by_cases hc : c.toNat < 128
    · rw [charBytes_of_ascii hc]
      rfl
    · have hwide : 128 ≤ c.toNat := Nat.le_of_not_lt hc
      obtain ⟨b, bs, hbytes⟩ := List.exists_cons_of_ne_nil (Level.charBytes_ne_nil c)
      have hb := le_toNat_of_mem_charBytes hwide (hbytes ▸ List.mem_cons_self)
      simp [hbytes, hp c hwide, hp b hb]

theorem isName_cons {c : Char} {t : List Char} (h : ∀ x ∈ c :: t, isNameChar x = true) :
    isName (c :: t) = !c.isDigit := by
  rw [isName, List.all_eq_true.2 h, Bool.and_true]

/-- A cut run is one piece of the text. -/
theorem append_around (before u v behind : List Char) :
    (before ++ u) ++ (v ++ behind) = before ++ ((u ++ v) ++ behind) := by
  simp

theorem slice?_around {source before u v behind : List Char}
    (h : source = (before ++ u) ++ (v ++ behind)) :
    slice? source ⟨byteLength before, byteLength before + byteLength (u ++ v)⟩ = some (u ++ v) :=
  slice?_of_eq (h.trans (append_around before u v behind)) rfl rfl

namespace LongestRun

variable {before u v run behind : List Char}

theorem encode_iff :
    LongestRun (encode before) run (encode behind) ↔ LongestRun before run behind := by
  have hboundary := getLast?_encode_any (fun _ => isNameChar_of_wide) before
  have hstops := head?_encode_any (fun _ => isNameChar_of_wide) behind
  constructor
  · intro h
    exact ⟨h.name_chars, hboundary ▸ h.boundary, hstops ▸ h.stops⟩
  · intro h
    exact ⟨h.name_chars, hboundary ▸ h.boundary, hstops ▸ h.stops⟩

theorem ascii (h : LongestRun before run behind) : ∀ c ∈ run, c.toNat < 128 :=
  fun c hc => ascii_of_isNameChar (h.name_chars c hc)

theorem byteLength_left (h : LongestRun before (u ++ v) behind) : byteLength u = u.length :=
  byteLength_of_ascii fun c hc => h.ascii c (List.mem_append_left v hc)

theorem takeWhile_left (h : LongestRun before (u ++ v) behind) :
    ((before ++ u).reverse.takeWhile isNameChar).reverse = u :=
  takeWhile_reverse_of_stops (fun c hc => h.name_chars c (List.mem_append_left v hc)) h.boundary

theorem takeWhile_right (h : LongestRun before (u ++ v) behind) :
    (v ++ behind).takeWhile isNameChar = v := by
  refine takeWhile_append_of_stops (fun c hc => h.name_chars c (List.mem_append_right u hc)) ?_
  intro c t hct
  have hstops := h.stops
  rw [hct] at hstops
  exact hstops

/-- From any place in the run it is found by characters, if it is a name. -/
theorem nameAt?_eq (h : LongestRun before (u ++ v) behind) {source : String}
    (hsource : source.toList = (before ++ u) ++ (v ++ behind)) :
    nameAt? source (byteLength before + byteLength u) =
      if isName (u ++ v) then
        some (⟨byteLength before, byteLength before + byteLength (u ++ v)⟩, String.ofList (u ++ v))
      else none := by
  have hstart : byteLength before + byteLength u - byteLength u = byteLength before := by omega
  rw [nameAt?, hsource, ← byteLength_append, splitAt?_append]
  simp only [Option.bind_some, h.takeWhile_left, h.takeWhile_right, byteLength_append, hstart,
    Nat.add_assoc]
  cases hrun : u ++ v with
  | nil => rfl
  | cons c t =>
    rw [isName_cons (hrun ▸ h.name_chars)]
    cases hc : c.isDigit <;> simp [hc]

/-- It is also found by bytes. -/
theorem nameSpanAt?_eq (h : LongestRun before (u ++ v) behind) :
    nameSpanAt? ((before ++ u) ++ (v ++ behind)) (before.length + u.length) =
      if isName (u ++ v) then some ⟨before.length, before.length + (u ++ v).length⟩ else none := by
  have hleft : ((before ++ u).reverse.takeWhile isNameChar).length = u.length := by
    rw [← List.length_reverse, h.takeWhile_left]
  have hstart : (before ++ u).length - u.length = before.length := by
    rw [List.length_append, Nat.add_sub_cancel]
  have hstop : (before ++ u).length + v.length = before.length + (u ++ v).length := by
    rw [List.length_append, List.length_append, Nat.add_assoc]
  have hwithin : ¬ ((before ++ u) ++ (v ++ behind)).length < (before ++ u).length := by
    rw [List.length_append]
    omega
  rw [nameSpanAt?, ByteSearch.runEnd, ← List.length_append, List.take_left, List.drop_left, hleft,
    h.takeWhile_right]
  simp only [hstart, hstop, hwithin]
  rw [append_around, List.getElem?_append_right (Nat.le_refl _), Nat.sub_self]
  cases hrun : u ++ v with
  | nil => simp [isName]
  | cons c t =>
    rw [isName_cons (hrun ▸ h.name_chars)]
    cases hc : c.isDigit <;> simp [hc]

end LongestRun

/-! ## Runs of name bytes -/

/-- The span is a longest run of name bytes that the offset touches, and starts with no digit. -/
structure NameRun (bs : List Char) (offset : Nat) (span : Span) : Prop where
  start_le : span.start ≤ offset
  le_stop : offset ≤ span.stop
  nonempty : span.start < span.stop
  within : span.stop ≤ bs.length
  name_bytes : ∀ i, span.start ≤ i → i < span.stop → bs[i]?.any isNameChar = true
  left_end : ∀ i, i + 1 = span.start → bs[i]?.any isNameChar = false
  right_end : bs[span.stop]?.any isNameChar = false
  digit_free : bs[span.start]?.any Char.isDigit = false

theorem exists_append_of_le_length {cs : List Char} {n : Nat} (h : n ≤ cs.length) :
    ∃ a b, cs = a ++ b ∧ n = a.length :=
  ⟨cs.take n, cs.drop n, (List.take_append_drop n cs).symm, (List.length_take_of_le h).symm⟩

theorem getElem?_length_add (a b : List Char) (n : Nat) : (a ++ b)[a.length + n]? = b[n]? := by
  rw [List.getElem?_append_right (Nat.le_add_right _ _), Nat.add_sub_cancel_left]

theorem any_getLast?_iff {p : Char → Bool} {a b : List Char} :
    a.getLast?.any p = false ↔ ∀ i, i + 1 = a.length → (a ++ b)[i]?.any p = false := by
  rcases List.eq_nil_or_concat a with rfl | ⟨a, c, rfl⟩ <;> simp

/-- A name that its surroundings do not continue is a run of bytes. -/
theorem LongestRun.nameRun {before u v behind : List Char} (h : LongestRun before (u ++ v) behind)
    (hname : isName (u ++ v) = true) :
    NameRun ((before ++ u) ++ (v ++ behind)) (before.length + u.length)
      ⟨before.length, before.length + (u ++ v).length⟩ := by
  obtain ⟨hne, -, hdigit⟩ := isName_iff.1 hname
  have hpos : 0 < (u ++ v).length := List.length_pos_of_ne_nil hne
  have hle : u.length ≤ (u ++ v).length := by simp
  rw [append_around]
  refine ⟨Nat.le_add_right _ _, Nat.add_le_add_left hle _, Nat.lt_add_of_pos_right hpos, by simp,
    ?_, any_getLast?_iff.1 h.boundary, ?_, ?_⟩
  · intro i hi hlt
    obtain ⟨j, rfl⟩ := Nat.exists_eq_add_of_le hi
    have hj : j < (u ++ v).length := Nat.lt_of_add_lt_add_left hlt
    rw [getElem?_length_add, List.getElem?_append_left hj, List.getElem?_eq_getElem hj]
    exact h.name_chars _ (List.getElem_mem hj)
  · rw [getElem?_length_add, List.getElem?_append_right (Nat.le_refl _), Nat.sub_self,
      ← List.head?_eq_getElem?]
    exact h.stops
  · obtain ⟨c, t, hct⟩ := List.exists_cons_of_ne_nil hne
    rw [List.getElem?_append_right (Nat.le_refl _), Nat.sub_self, hct]
    exact hdigit c t hct

/-- A run of bytes cuts the text into what is before it, its two sides of the offset, and what is
behind it. -/
theorem NameRun.exists_append {bs : List Char} {offset : Nat} {span : Span}
    (h : NameRun bs offset span) :
    ∃ before u v behind, bs = (before ++ u) ++ (v ++ behind) ∧
      LongestRun before (u ++ v) behind ∧ isName (u ++ v) = true ∧
      offset = before.length + u.length ∧
      span = ⟨before.length, before.length + (u ++ v).length⟩ := by
  obtain ⟨start, stop⟩ := span
  obtain ⟨hstart, hstop, hlt, hwithin, hchars, hleft, hright, hdigit⟩ := h
  simp only at hstart hstop hlt hwithin hchars hleft hright hdigit
  obtain ⟨before, rest, rfl, rfl⟩ := exists_append_of_le_length (show start ≤ bs.length by omega)
  rw [List.length_append] at hwithin
  obtain ⟨m, rfl⟩ := Nat.exists_eq_add_of_le hstart
  obtain ⟨u, rest, rfl, rfl⟩ := exists_append_of_le_length (show m ≤ rest.length by omega)
  rw [List.length_append] at hwithin
  obtain ⟨n, rfl⟩ := Nat.exists_eq_add_of_le hstop
  obtain ⟨v, behind, rfl, rfl⟩ := exists_append_of_le_length (show n ≤ rest.length by omega)
  have hlength : before.length + u.length + v.length = before.length + (u ++ v).length := by
    rw [List.length_append, Nat.add_assoc]
  rw [hlength] at hlt hchars hright
  rw [← List.append_assoc before, append_around] at hchars hleft hright hdigit
  have hname : ∀ c ∈ u ++ v, isNameChar c = true := by
    intro c hc
    obtain ⟨j, hj, rfl⟩ := List.getElem_of_mem hc
    have hat := hchars (before.length + j) (Nat.le_add_right _ _) (Nat.add_lt_add_left hj _)
    rw [getElem?_length_add, List.getElem?_append_left hj, List.getElem?_eq_getElem hj] at hat
    exact hat
  rw [getElem?_length_add, List.getElem?_append_right (Nat.le_refl _), Nat.sub_self,
    ← List.head?_eq_getElem?] at hright
  rw [List.getElem?_append_right (Nat.le_refl _), Nat.sub_self] at hdigit
  refine ⟨before, u, v, behind, (List.append_assoc _ _ _).symm,
    ⟨hname, any_getLast?_iff.2 hleft, hright⟩, ?_, rfl, by rw [hlength]⟩
  refine isName_iff.2 ⟨List.ne_nil_of_length_pos (by omega), hname, ?_⟩
  intro c t hct
  rw [hct] at hdigit
  exact hdigit

/-- The run around an offset is found, and nothing else. -/
theorem nameSpanAt?_eq_some_iff {bs : List Char} {offset : Nat} {span : Span} :
    nameSpanAt? bs offset = some span ↔ NameRun bs offset span := by
  constructor
  · intro h
    have hwithin : offset ≤ bs.length := by
      by_contra hlt
      simp [nameSpanAt?, Nat.lt_of_not_le hlt] at h
    obtain ⟨front, rest, rfl, rfl⟩ := exists_append_of_le_length hwithin
    obtain ⟨before, u, v, behind, rfl, rfl, hrun⟩ := exists_longestRun front rest
    rw [List.length_append, hrun.nameSpanAt?_eq] at h
    split_ifs at h with hname
    obtain rfl := Option.some.inj h
    rw [List.length_append]
    exact hrun.nameRun hname
  · intro h
    obtain ⟨before, u, v, behind, rfl, hrun, hname, rfl, rfl⟩ := h.exists_append
    rw [hrun.nameSpanAt?_eq, if_pos hname]

/-! ## From bytes to characters -/

/-- A longest run of bytes is one of the text. -/
theorem nameRun_bytes_iff {source : String} {offset : Nat} {span : Span} :
    NameRun (bytes source) offset span ↔
      ∃ before u v behind, source.toList = (before ++ u) ++ (v ++ behind) ∧
        LongestRun before (u ++ v) behind ∧ isName (u ++ v) = true ∧
        offset = byteLength before + byteLength u ∧
        span = ⟨byteLength before, byteLength before + byteLength (u ++ v)⟩ := by
  rw [bytes_eq_encode]
  constructor
  · intro h
    obtain ⟨before', u, v, behind', hbytes, hrun, hname, rfl, rfl⟩ := h.exists_append
    rw [append_around] at hbytes
    obtain ⟨before, behind, hsource, rfl, rfl⟩ :=
      exists_of_encode_eq_append_ascii (isName_iff.1 hname).1 hrun.ascii hbytes
    rw [← append_around] at hsource
    refine ⟨before, u, v, behind, hsource, LongestRun.encode_iff.1 hrun, hname, ?_, ?_⟩
    · rw [length_encode, hrun.byteLength_left]
    · rw [length_encode, byteLength_of_ascii hrun.ascii]
  · intro h
    obtain ⟨before, u, v, behind, hsource, hrun, hname, rfl, rfl⟩ := h
    have hencoded : encode source.toList = (encode before ++ u) ++ (v ++ encode behind) := by
      rw [hsource, append_around, encode_append, encode_append, encode_of_ascii hrun.ascii,
        append_around]
    have hbytes := (LongestRun.encode_iff.2 hrun).nameRun hname
    rw [length_encode, ← hrun.byteLength_left, ← byteLength_of_ascii hrun.ascii] at hbytes
    rw [hencoded]
    exact hbytes

theorem nameAt?_eq_some_iff {source : String} {offset : Nat} {span : Span} {name : String} :
    nameAt? source offset = some (span, name) ↔
      NameRun (bytes source) offset span ∧ slice? source.toList span = some name.toList := by
  rw [nameRun_bytes_iff]
  constructor
  · intro h
    obtain ⟨⟨front, rest⟩, hcut, -⟩ := Option.bind_eq_some_iff.1 h
    obtain ⟨hsource, rfl⟩ := splitAt?_eq_some_iff.1 hcut
    obtain ⟨before, u, v, behind, rfl, rfl, hrun⟩ := exists_longestRun front rest
    rw [byteLength_append, hrun.nameAt?_eq hsource] at h
    split_ifs at h with hname
    cases h
    refine ⟨⟨before, u, v, behind, hsource, hrun, hname, byteLength_append _ _, rfl⟩, ?_⟩
    rw [String.toList_ofList]
    exact slice?_around hsource
  · intro h
    obtain ⟨⟨before, u, v, behind, hsource, hrun, hname, rfl, rfl⟩, hslice⟩ := h
    rw [slice?_around hsource] at hslice
    rw [hrun.nameAt?_eq hsource, if_pos hname, Option.some.inj hslice, String.ofList_toList]

/-- The name at an offset can be sliced. -/
theorem nameAtByte?_eq (source : String) (offset : Nat) :
    nameAtByte? source offset = some (nameAt? source offset) := by
  unfold nameAtByte?
  cases hspan : nameSpanAt? (bytes source) offset with
  | none =>
    cases hname : nameAt? source offset with
    | none => rfl
    | some found =>
      have hfound := nameSpanAt?_eq_some_iff.2 (nameAt?_eq_some_iff.1 hname).1
      rw [hspan] at hfound
      cases hfound
  | some span =>
    have hrun := nameSpanAt?_eq_some_iff.1 hspan
    obtain ⟨before, u, v, behind, hsource, -, -, -, rfl⟩ := nameRun_bytes_iff.1 hrun
    have hread := slice?_around hsource
    have hname := nameAt?_eq_some_iff.2 ⟨hrun, hread.trans (by rw [String.toList_ofList])⟩
    rw [hname, Option.mapM_some, hread]
    rfl

/-- **Every slice is taken.** A slice can be taken of a span exactly if its ends are in order,
inside of the text and in no character. All readers take only such slices, and the finder of calls
fills only slots that it made: none of them fails, and they read the calls, the arguments and the
name that are read by characters. The name at an offset is the longest run of name bytes around it,
if it does not start with a digit. -/
theorem every_slice_taken (source : String) :
    (∀ span, (slice? source.toList span).isSome = true ↔ Sliceable source.toList span) ∧
      SlotFinder.findAll? source = some (CallSite.findAll source) ∧
      (∀ base, Argument.cutList? source base = some (Argument.cutList source base)) ∧
      ∀ offset, nameAtByte? source offset = some (nameAt? source offset) ∧
        ∀ span name, nameAt? source offset = some (span, name) ↔
          NameRun (bytes source) offset span ∧ slice? source.toList span = some name.toList :=
  ⟨fun _ => isSome_slice?_iff, SlotFinder.findAll?_eq source, Argument.cutList?_eq source,
    fun offset => ⟨nameAtByte?_eq source offset, fun _ _ => nameAt?_eq_some_iff⟩⟩

end FlowExpr
