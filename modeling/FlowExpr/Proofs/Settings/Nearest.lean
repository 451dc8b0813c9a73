import FlowExpr.Settings.Locate
import Mathlib.Data.List.Infix

/-!
# Which settings apply

**Theorem (`discover_nearest`).** The settings for a path are those of the nearest file
`settings.toml` on the way up from it. If there is none, they are those of a directory directly
inside, and if there is none there either, they say nothing.

`Found` says where the file has to be, without any order of search: above the path it is the one
with the longest way from the root, and the directories inside count only if there is none above.
A file is what its directory holds under that name (`SettingsFile`), so a directory of that name is
no settings file, and a file counts whether or not it can be used.

The search goes through the paths above one by one. Each of them is the next one with one step more
(`upward_concat`), so that the first hit is the longest path with a file
(`find?_upward_eq_some_iff`). What a path with one more name leads to is an entry of what the path
leads to (`find?_append_name`): that makes the looked up files those of the directory.
-/

namespace FlowExpr

/-! ## Paths above a path -/

namespace TreePath

/-- A path is above itself, and then come the paths above its parent. -/
theorem upward_concat (path : TreePath) (step : String) :
    upward (path ++ [step]) = (path ++ [step]) :: upward path := by
  have htake : ∀ k ∈ (List.range (path.length + 1)).reverse,
      (path ++ [step]).take k = path.take k := by
    intro k hk
    rw [List.mem_reverse, List.mem_range] at hk
    exact List.take_append_of_le_length (Nat.le_of_lt_succ hk)
  rw [upward, List.length_append, List.length_singleton, List.range_succ, List.reverse_append,
    List.reverse_singleton, List.singleton_append, List.map_cons, List.map_congr_left htake,
    ← upward, List.take_of_length_le (by simp)]

theorem mem_upward_iff {path dir : TreePath} : dir ∈ path.upward ↔ dir <+: path := by
  induction path using List.reverseRecOn with
  | nil => simp [upward]
  | append_singleton path step ih =>
    rw [upward_concat, List.mem_cons, ih, List.prefix_concat_iff]

/-- The first hit on the way up is the longest of all hits. -/
theorem find?_upward_eq_some_iff {p : TreePath → Bool} {path dir : TreePath} :
    path.upward.find? p = some dir ↔
      dir <+: path ∧ p dir = true ∧ ∀ d, d <+: path → p d = true → d <+: dir := by
  induction path using List.reverseRecOn with
  | nil =>
    have hupward : upward [] = [[]] := rfl
    simp only [hupward, List.prefix_nil]
    constructor
    · intro h
      have hdir := List.mem_singleton.1 (List.mem_of_find?_eq_some h)
      exact ⟨hdir, List.find?_some h, fun d hd _ => hd ▸ List.nil_prefix⟩
    · rintro ⟨rfl, hp, -⟩
      rw [List.find?_cons_of_pos hp]
  | append_singleton path step ih =>
    rw [upward_concat]
    by_cases hp : p (path ++ [step]) = true
    · rw [List.find?_cons_of_pos hp, Option.some_inj]
      constructor
      · rintro rfl
        exact ⟨List.prefix_rfl, hp, fun d hd _ => hd⟩
      · rintro ⟨hdir, -, hlongest⟩
        exact (hdir.eq_of_length_le (hlongest _ List.prefix_rfl hp).length_le).symm
    · rw [List.find?_cons_of_neg hp, ih]
      -- A hit is not the path itself, so that both sides speak of the paths above its parent.
      have hbelow : ∀ d, p d = true → (d <+: path ++ [step] ↔ d <+: path) := by
        intro d hd
        rw [List.prefix_concat_iff]
        exact or_iff_right fun h => hp (h ▸ hd)
      constructor
      · rintro ⟨hdir, hpd, hlongest⟩
        exact ⟨(hbelow dir hpd).2 hdir, hpd, fun d hd hp => hlongest d ((hbelow d hp).1 hd) hp⟩
      · rintro ⟨hdir, hpd, hlongest⟩
        exact ⟨(hbelow dir hpd).1 hdir, hpd, fun d hd hp => hlongest d ((hbelow d hp).2 hd) hp⟩

end TreePath

/-! ## What a longer path leads to -/

namespace FileTree

theorem follow_append_name {name : String} (hidle : TreePath.isIdle name = false)
    (hup : name ≠ "..") (around : List FileTree) (t : FileTree) (path : TreePath) :
    follow around t (path ++ [name]) =
      (follow around t path).bind fun place => place.entries.lookup name := by
  induction path generalizing around t with
  | nil =>
    cases t with
    | file content => rfl
    | directory entries =>
      cases hentry : entries.lookup name <;>
        simp [follow, FileTree.entries, hidle, hup, hentry]
  | cons step path ih =>
    cases t with
    | file content => rfl
    | directory entries =>
      simp only [List.cons_append, follow]
      split_ifs
      · exact ih around _
      · cases around with
        | nil => rfl
        | cons outer around => exact ih around outer
      · cases entries.lookup step with
        | none => rfl
        | some inner => exact ih _ inner

/-- One more name leads to an entry of the place. -/
theorem find?_append_name {name : String} (hidle : TreePath.isIdle name = false)
    (hup : name ≠ "..") (t : FileTree) (path : TreePath) :
    t.find? (path ++ [name]) = (t.find? path).bind fun place => place.entries.lookup name :=
  follow_append_name hidle hup [] t path

end FileTree

/-! ## Settings files -/

namespace Settings

/-- A directory holds a settings file with this content. -/
def SettingsFile (t : FileTree) (dir : TreePath) (content : ByteArray) : Prop :=
  ∃ entries, t.find? dir = some (.directory entries) ∧
    entries.lookup settingsName = some (.file content)

/-- A directory stands directly inside a path. -/
def IsChild (t : FileTree) (start dir : TreePath) : Prop :=
  ∃ entries name inner, t.find? start = some (.directory entries) ∧
    (name, FileTree.directory inner) ∈ entries ∧ dir = start.child name

/-- The settings file that applies to a path, by its directory and content. -/
inductive Found (t : FileTree) (start : TreePath) : TreePath → ByteArray → Prop
  /-- The nearest one on the way up. -/
  | above {dir : TreePath} {content : ByteArray} (hdir : dir <+: start)
      (hfile : SettingsFile t dir content)
      (hnearest : ∀ d c, d <+: start → SettingsFile t d c → d <+: dir) : Found t start dir content
  /-- One directly inside, if there is none on the way up. -/
  | inside {dir : TreePath} {content : ByteArray}
      (hnone : ∀ d c, d <+: start → ¬ SettingsFile t d c) (hdir : IsChild t start dir)
      (hfile : SettingsFile t dir content) : Found t start dir content

variable {t : FileTree} {start dir : TreePath} {content : ByteArray}

theorem settingsFile_iff :
    SettingsFile t dir content ↔ t.find? (dir ++ [settingsName]) = some (.file content) := by
  rw [FileTree.find?_append_name (by decide) (by decide), Option.bind_eq_some_iff]
  constructor
  · rintro ⟨entries, hdir, hentry⟩
    exact ⟨_, hdir, hentry⟩
  · rintro ⟨place, hdir, hentry⟩
    cases place with
    | file content => cases hentry
    | directory entries => exact ⟨entries, hdir, hentry⟩

theorem isIn_iff : isIn t dir = true ↔ ∃ content, SettingsFile t dir content := by
  simp only [settingsFile_iff, isIn]
  split
  · rename_i content hfile
    exact iff_of_true rfl ⟨content, hfile⟩
  · rename_i hnone
    exact iff_of_false Bool.false_ne_true fun ⟨content, hfile⟩ => hnone content hfile

theorem mem_childDirectories_iff : dir ∈ childDirectories t start ↔ IsChild t start dir := by
  unfold childDirectories IsChild
  split
  · rename_i entries hstart
    rw [List.mem_filterMap]
    constructor
    · rintro ⟨⟨name, child⟩, hmem, hchild⟩
      cases child with
      | file content => cases hchild
      | directory inner =>
        exact ⟨entries, name, inner, hstart, hmem, (Option.some.inj hchild).symm⟩
    · rintro ⟨entries', name, inner, hstart', hmem, rfl⟩
      obtain rfl : entries = entries' := by simpa [hstart] using hstart'
      exact ⟨(name, .directory inner), hmem, rfl⟩
  · rename_i hstart
    refine iff_of_false List.not_mem_nil ?_
    rintro ⟨entries, name, inner, hstart', -⟩
    exact hstart entries hstart'

theorem read_of_settingsFile (h : SettingsFile t dir content) :
    read t (dir ++ [settingsName]) = ofContent content := by
  rw [read, settingsFile_iff.1 h]

/-! ## The search -/

/-- Whatever is located is a settings file that applies. -/
theorem exists_found_of_locate? (h : locate? t start = some dir) :
    ∃ content, Found t start dir content := by
  rw [locate?, List.find?_append, Option.or_eq_some_iff] at h
  rcases h with habove | ⟨hnone, hinside⟩
  · obtain ⟨hdir, hfile, hnearest⟩ := TreePath.find?_upward_eq_some_iff.1 habove
    obtain ⟨content, hfile⟩ := isIn_iff.1 hfile
    exact ⟨content, .above hdir hfile fun d c hd hc => hnearest d hd (isIn_iff.2 ⟨c, hc⟩)⟩
  · obtain ⟨content, hfile⟩ := isIn_iff.1 (List.find?_some hinside)
    refine ⟨content, .inside (fun d c hd hc => ?_)
      (mem_childDirectories_iff.1 (List.mem_of_find?_eq_some hinside)) hfile⟩
    exact List.find?_eq_none.1 hnone d (TreePath.mem_upward_iff.2 hd) (isIn_iff.2 ⟨c, hc⟩)

/-- A settings file that applies is located, if no two directories inside compete. -/
theorem locate?_of_found
    (hone : ∀ d d' c c', IsChild t start d → IsChild t start d' → SettingsFile t d c →
      SettingsFile t d' c' → d = d')
    (h : Found t start dir content) : locate? t start = some dir := by
  rw [locate?, List.find?_append, Option.or_eq_some_iff]
  cases h with
  | above hdir hfile hnearest =>
    left
    refine TreePath.find?_upward_eq_some_iff.2
      ⟨hdir, isIn_iff.2 ⟨content, hfile⟩, fun d hd hp => ?_⟩
    obtain ⟨c, hc⟩ := isIn_iff.1 hp
    exact hnearest d c hd hc
  | inside hnone hdir hfile =>
    right
    refine ⟨List.find?_eq_none.2 fun d hd hp => ?_, ?_⟩
    · obtain ⟨c, hc⟩ := isIn_iff.1 hp
      exact hnone d c (TreePath.mem_upward_iff.1 hd) hc
    · have hsome : ((childDirectories t start).find? (isIn t)).isSome = true :=
        List.find?_isSome.2 ⟨dir, mem_childDirectories_iff.2 hdir, isIn_iff.2 ⟨content, hfile⟩⟩
      obtain ⟨first, hfirst⟩ := Option.isSome_iff_exists.1 hsome
      obtain ⟨c, hc⟩ := isIn_iff.1 (List.find?_some hfirst)
      have hchild := mem_childDirectories_iff.1 (List.mem_of_find?_eq_some hfirst)
      rw [hfirst, hone first dir c content hchild hdir hc hfile]

/-- **The nearest settings apply.** The settings file that applies to a path decides, also when it
cannot be used, and then nothing is set for its directory. Without such a file nothing is set for
the path itself. A directory under the name of settings files never counts as one. -/
theorem discover_nearest (t : FileTree) (start : TreePath)
    (hone : ∀ d d' c c', IsChild t start d → IsChild t start d' → SettingsFile t d c →
      SettingsFile t d' c' → d = d') :
    (∀ dir content, Found t start dir content →
      discover t start = (load t (dir ++ [settingsName]), dir) ∧
      (∀ s, ofContent content = .ok s → discover t start = (s, dir)) ∧
      ∀ e, ofContent content = .error e →
        discover t start = ({}, dir) ∧ (discover t start).1.checks = {}) ∧
    ((∀ dir content, ¬ Found t start dir content) → discover t start = ({}, start)) ∧
    ∀ dir inner content, t.find? (dir ++ [settingsName]) = some (.directory inner) →
      ¬ Found t start dir content := by
  refine ⟨fun dir content hfound => ?_, fun hnone => ?_, fun dir inner content hinner hfound => ?_⟩
  · have hdiscover : discover t start = (load t (dir ++ [settingsName]), dir) := by
      rw [discover, locate?_of_found hone hfound]
    have hfile : SettingsFile t dir content := by
      cases hfound <;> assumption
    refine ⟨hdiscover, fun s hs => ?_, fun e he => ?_⟩
    · rw [hdiscover, load, read_of_settingsFile hfile, hs]
    · have hempty : discover t start = ({}, dir) := by
        rw [hdiscover, load, read_of_settingsFile hfile, he]
      exact ⟨hempty, by rw [hempty]; rfl⟩
  · cases hlocate : locate? t start with
    | none => rw [discover, hlocate]
    | some dir =>
      obtain ⟨content, hfound⟩ := exists_found_of_locate? hlocate
      exact absurd hfound (hnone dir content)
  · have hfile : SettingsFile t dir content := by
      cases hfound <;> assumption
    rw [settingsFile_iff.1 hfile] at hinner
    cases hinner

/-- The path leads nowhere, the directory `settings.toml` on the way up does not count, and the
broken file behind it is nearer than the good one at the root. -/
theorem discover_nearest_broken :
    let t : FileTree :=
      .directory [("settings.toml", .file "[diagnostics]\narity = false\n".toUTF8),
        ("a", .directory [("settings.toml", .file "[diagnostics\n".toUTF8),
          ("b", .directory [("settings.toml", .directory [])])])]
    discover t ["a", "b", "gone"] = ({}, ["a"]) ∧
      ∀ content, ¬ Found t ["a", "b", "gone"] ["a", "b"] content := by
  intro t
  have hone : ∀ d d' c c', IsChild t ["a", "b", "gone"] d → IsChild t ["a", "b", "gone"] d' →
      SettingsFile t d c → SettingsFile t d' c' → d = d' := by
    rintro d d' c c' ⟨entries, name, inner, hgone, -⟩
    cases hgone
  have hfound : Found t ["a", "b", "gone"] ["a"] "[diagnostics\n".toUTF8 := by
    have hhits : ∀ d ∈ TreePath.upward ["a", "b", "gone"], isIn t d = true → d <+: ["a"] := by
      decide +kernel
    exact .above (by decide) (settingsFile_iff.2 rfl) fun d c hd hc =>
      hhits d (TreePath.mem_upward_iff.2 hd) (isIn_iff.2 ⟨c, hc⟩)
  obtain ⟨hfile, -, hdirectory⟩ := discover_nearest t ["a", "b", "gone"] hone
  obtain ⟨-, -, hbroken⟩ := hfile ["a"] _ hfound
  have hfails : (ofContent "[diagnostics\n".toUTF8).isOk = false := by decide +kernel
  refine ⟨?_, fun content => hdirectory ["a", "b"] [] content rfl⟩
  cases hread : ofContent "[diagnostics\n".toUTF8 with
  | ok settings =>
    rw [hread] at hfails
    cases hfails
  | error e => exact (hbroken e hread).1

end Settings

end FlowExpr
