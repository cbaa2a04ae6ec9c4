import BlockCalc.Files.Sources
import BlockCalc.Proofs.Trimming

/-!
# BlockCalc.Proofs.FileTrees

What paths and targets lead to in a tree of files. Trees with files and directories at the same
places (`SameShape`) are gone through alike, whatever the files hold; so writing to a file that is
there changes nothing but its content. The program files of a list of targets are those that are a
target or lie in one (`mem_sources`), if all targets lead somewhere (`exists_sources_iff`).
-/

namespace BlockCalc

/-- The content that is found is a directory's. -/
def Found.isDirectory : Found → Bool
  | .file _ => false
  | .directory => true

namespace FileTree

/-- The places of the files. -/
def places (t : FileTree) : List Place := t.files.map (·.1)

theorem mem_places {t : FileTree} {p : Place} :
    p ∈ t.places ↔ ∃ content, t.files.lookup p = some content := by
  rw [places]
  induction t.files with
  | nil => simp
  | cons f fs ih =>
    obtain ⟨q, content⟩ := f
    rw [List.map_cons, List.mem_cons, ih, List.lookup_cons]
    by_cases hp : p = q
    · simp [hp]
    · simp [hp, beq_false_of_ne hp]

theorem at?_eq_file {t : FileTree} {p : Place} {content : Text} :
    t.at? p = some (.file content) ↔ t.files.lookup p = some content := by
  unfold at?
  split
  · rename_i content' h
    simp [h]
  · rename_i h
    split <;> simp [h]

theorem not_mem_places_of_directory {t : FileTree} {p : Place} (h : t.at? p = some .directory) :
    p ∉ t.places := by
  intro hp
  obtain ⟨content, hcontent⟩ := mem_places.1 hp
  rw [at?_eq_file.2 hcontent] at h
  cases h

theorem lookup_put (t : FileTree) (p q : Place) (content : Text) :
    (t.put p content).files.lookup q = if q = p then some content else t.files.lookup q := by
  rw [put, List.lookup_cons, lookup_filter_ne]
  by_cases hq : q = p
  · simp [hq]
  · simp [hq, beq_false_of_ne hq]

theorem find_eq_ok_iff {t : FileTree} {cwd q : Place} {path : String} {found : Found} :
    t.find cwd path = .ok (q, found) ↔ t.locate cwd path = .ok q ∧ t.at? q = some found := by
  constructor
  · intro h
    unfold find at h
    split at h
    · cases h
    · rename_i hlocate
      split at h
      · cases h
      · rename_i hat
        cases h
        exact ⟨hlocate, hat⟩
  · rintro ⟨hlocate, hat⟩
    rw [find, hlocate]
    dsimp only
    rw [hat]

theorem read_eq_ok_iff {t : FileTree} {cwd : Place} {path : String} {content : Text} :
    t.read cwd path = .ok content ↔
      ∃ q, t.locate cwd path = .ok q ∧ t.files.lookup q = some content := by
  simp only [← at?_eq_file, ← find_eq_ok_iff]
  constructor
  · intro h
    unfold read at h
    split at h
    · cases h
    · cases h
    · rename_i hfind
      cases h
      exact ⟨_, hfind⟩
  · rintro ⟨q, hfind⟩
    rw [read, hfind]

/-! ## Trees of the same shape -/

/-- The files and the directories of both trees are at the same places. -/
structure SameShape (t t' : FileTree) : Prop where
  directories : t'.directories = t.directories
  places : ∀ p, p ∈ t'.places ↔ p ∈ t.places

namespace SameShape

variable {t t' t'' : FileTree}

theorem refl (t : FileTree) : SameShape t t := ⟨rfl, fun _ => .rfl⟩

theorem symm (h : SameShape t t') : SameShape t' t :=
  ⟨h.directories.symm, fun p => (h.places p).symm⟩

theorem trans (h : SameShape t t') (h' : SameShape t' t'') : SameShape t t'' :=
  ⟨h'.directories.trans h.directories, fun p => (h'.places p).trans (h.places p)⟩

theorem put {p : Place} (hp : p ∈ t.places) (content : Text) :
    SameShape t (t.put p content) where
  directories := rfl
  places := by
    intro q
    rw [mem_places, mem_places, lookup_put]
    by_cases hq : q = p
    · rw [if_pos hq, hq]
      exact iff_of_true ⟨content, rfl⟩ (mem_places.1 hp)
    · rw [if_neg hq]

theorem isDirectory (h : SameShape t t') (c : Place) : t'.isDirectory c = t.isDirectory c := by
  have hfiles : (t'.files.any fun f => c.isPrefixOf f.1 && c.length < f.1.length) =
      t.files.any fun f => c.isPrefixOf f.1 && c.length < f.1.length := by
    have hplaces : ∀ u : FileTree,
        (u.files.any fun f => c.isPrefixOf f.1 && c.length < f.1.length) =
          u.places.any fun p => c.isPrefixOf p && c.length < p.length := fun u => by
      rw [FileTree.places, List.any_map]
      rfl
    rw [hplaces, hplaces, Bool.eq_iff_iff, List.any_eq_true, List.any_eq_true]
    simp only [h.places]
  unfold FileTree.isDirectory
  rw [h.directories, hfiles]

/-- What is found at a place is a file in both trees, or a directory in both, or nothing. -/
theorem at? (h : SameShape t t') (c : Place) :
    (t'.at? c).map Found.isDirectory = (t.at? c).map Found.isDirectory := by
  have hfile : ∀ {u : FileTree}, c ∈ u.places → (u.at? c).map Found.isDirectory = some false := by
    intro u hc
    obtain ⟨content, hcontent⟩ := mem_places.1 hc
    rw [at?_eq_file.2 hcontent]
    rfl
  have hnone : ∀ {u : FileTree}, c ∉ u.places →
      (u.at? c).map Found.isDirectory = if u.isDirectory c then some true else none := by
    intro u hc
    have hlookup : u.files.lookup c = none :=
      Option.eq_none_iff_forall_ne_some.2 fun content hcontent =>
        hc (mem_places.2 ⟨content, hcontent⟩)
    unfold FileTree.at?
    rw [hlookup]
    dsimp only
    split <;> rfl
  by_cases hc : c ∈ t.places
  · rw [hfile hc, hfile ((h.places c).2 hc)]
  · rw [hnone hc, hnone fun hc' => hc ((h.places c).1 hc'), h.isDirectory]

theorem enter (h : SameShape t t') (here : Place) (name : String) :
    t'.enter here name = t.enter here name := by
  have hat := h.at? here
  unfold FileTree.enter
  cases hf : t.at? here with
  | none =>
    rw [hf] at hat
    rw [Option.map_eq_none_iff.1 hat]
  | some found =>
    rw [hf] at hat
    obtain ⟨found', hf', hkind⟩ := Option.map_eq_some_iff.1 hat
    rw [hf']
    cases found <;> cases found' <;> first | rfl | cases hkind

theorem locate (h : SameShape t t') (cwd : Place) (path : String) :
    t'.locate cwd path = t.locate cwd path := by
  have henter : t'.enter = t.enter := funext fun here => funext fun name => h.enter here name
  unfold FileTree.locate
  rw [henter]

theorem find (h : SameShape t t') {cwd q : Place} {path : String} {found : Found}
    (hfind : t.find cwd path = .ok (q, found)) :
    ∃ found', t'.find cwd path = .ok (q, found') ∧ found'.isDirectory = found.isDirectory := by
  obtain ⟨hlocate, hfound⟩ := find_eq_ok_iff.1 hfind
  have hat := h.at? q
  rw [hfound] at hat
  obtain ⟨found', hfound', hkind⟩ := Option.map_eq_some_iff.1 hat
  exact ⟨found', find_eq_ok_iff.2 ⟨by rw [h.locate, hlocate], hfound'⟩, hkind⟩

end SameShape

end FileTree

/-! ## The last component of a path -/

theorem Text.not_mem_of_mem_splitAt {sep : Glyph} {t : Text} : ∀ {piece : Text},
    piece ∈ Text.splitAt sep t → sep ∉ piece := by
  induction t with
  | nil =>
    intro piece hpiece
    rw [List.mem_singleton.1 hpiece]
    exact List.not_mem_nil
  | cons g t ih =>
    intro piece hpiece
    rw [Text.splitAt] at hpiece
    split at hpiece
    · rcases List.mem_cons.1 hpiece with rfl | hpiece
      · exact List.not_mem_nil
      · exact ih hpiece
    · rename_i hg
      have hgrow : ∀ {u : Text}, sep ∉ u → sep ∉ g :: u := fun hu hmem =>
        (List.mem_cons.1 hmem).elim (fun heq => hg heq.symm) hu
      split at hpiece
      · rw [List.mem_singleton.1 hpiece]
        exact hgrow List.not_mem_nil
      · rename_i first rest hsplit
        rw [hsplit] at ih
        rcases List.mem_cons.1 hpiece with rfl | hpiece
        · exact hgrow (ih List.mem_cons_self)
        · exact ih (List.mem_cons_of_mem _ hpiece)

namespace Path

theorem splitSlashes_of_not_mem {name : String} (h : Glyph.char '/' ∉ Text.ofString name) :
    splitSlashes name = [name] := by
  rw [splitSlashes, Text.splitAt_of_not_mem h, List.map_singleton, Text.toString_ofString]

/-- A component of a path is a path of one component. -/
theorem splitSlashes_of_mem {path name : String} (h : name ∈ splitSlashes path) :
    splitSlashes name = [name] := by
  obtain ⟨piece, hpiece, rfl⟩ := List.mem_map.1 h
  have hslash : Glyph.char '/' ∉ Text.ofString (Text.toString piece) := by
    intro hmem
    obtain ⟨c, hc, hslash⟩ := List.mem_map.1 hmem
    cases hslash
    rw [Text.toString, String.toList_ofList] at hc
    obtain ⟨g, hg, hshown⟩ := List.mem_map.1 hc
    cases g with
    | stray b => exact absurd (show '�' = '/' from hshown) (by decide)
    | char d =>
      obtain rfl : d = '/' := hshown
      exact Text.not_mem_of_mem_splitAt hpiece hg
  exact splitSlashes_of_not_mem hslash

theorem extension_of_last {path name : String} (h : (splitSlashes path).getLast? = some name) :
    extension path = extension name := by
  unfold extension
  rw [h, splitSlashes_of_mem (List.mem_of_getLast? h)]
  rfl

end Path

namespace FileTree

/-- Where one component of a path leads from a directory. -/
theorem enter_cases {t : FileTree} {here c : Place} {name : String}
    (h : t.enter here name = .ok c) :
    ((name = "" ∨ name = ".") ∧ c = here) ∨ (name = ".." ∧ c = here.dropLast) ∨
      (¬ (name = "" ∨ name = ".") ∧ name ≠ ".." ∧ c = here ++ [name]) := by
  unfold enter at h
  split at h
  · cases h
  · cases h
  · split at h
    · rename_i hname
      cases h
      exact .inl ⟨hname, rfl⟩
    · rename_i hname
      split at h
      · rename_i hup
        cases h
        exact .inr (.inl ⟨hup, rfl⟩)
      · rename_i hup
        split at h
        · cases h
        · cases h
          exact .inr (.inr ⟨hname, hup, rfl⟩)

theorem foldlM_of_locate {t : FileTree} {cwd c : Place} {path : String}
    (h : t.locate cwd path = .ok c) :
    path ≠ "" ∧ (Path.splitSlashes path).foldlM t.enter
      (if Path.isAbsolute path then [] else cwd) = .ok c := by
  unfold locate at h
  split at h
  · cases h
  · split at h
    · cases h
    · rename_i hne
      split at h
      · cases h
      · exact ⟨hne, h⟩

/-- A path leads to a place with the name that is its last component, unless that stands for a
directory on the way. -/
theorem exists_last_of_locate {t : FileTree} {cwd c : Place} {path : String}
    (h : t.locate cwd path = .ok c) :
    ∃ name, (Path.splitSlashes path).getLast? = some name ∧
      (c.getLast? = some name ∨ name = "" ∨ name = "." ∨ name = "..") := by
  obtain ⟨front, name, hsplit⟩ : ∃ front name, Path.splitSlashes path = front ++ [name] := by
    have hne : Path.splitSlashes path ≠ [] := by
      rw [Path.splitSlashes, ne_eq, List.map_eq_nil_iff]
      exact Text.splitAt_ne_nil _ _
    exact ⟨_, _, (List.dropLast_concat_getLast hne).symm⟩
  refine ⟨name, by rw [hsplit, List.getLast?_concat], ?_⟩
  obtain ⟨_, hfold⟩ := foldlM_of_locate h
  rw [hsplit, List.foldlM_append] at hfold
  generalize List.foldlM t.enter _ front = r at hfold
  cases r with
  | error e => cases hfold
  | ok here =>
    have henter : t.enter here name = .ok c := by
      have hlast : List.foldlM t.enter here [name] = .ok c := hfold
      simpa only [List.foldlM_cons, List.foldlM_nil, bind_pure] using hlast
    rcases enter_cases henter with ⟨hname, _⟩ | ⟨hname, _⟩ | ⟨_, _, rfl⟩
    · exact .inr (hname.imp_right .inl)
    · exact .inr (.inr (.inr hname))
    · exact .inl List.getLast?_concat

/-- The path of a program file ends as one, or in a directory on the way. -/
theorem extension_of_isSource {t : FileTree} {cwd c : Place} {path : String}
    (h : t.locate cwd path = .ok c) (hc : c.isSource = true) :
    Path.extension path = sourceExtension ∨ Path.extension path = "" ∨
      Path.extension path = "." := by
  obtain ⟨name, hname, hlast⟩ := exists_last_of_locate h
  rw [Path.extension_of_last hname]
  rcases hlast with hlast | rfl | rfl | rfl
  · rw [Place.isSource, hlast] at hc
    exact .inl (eq_of_beq hc)
  · exact .inr (.inl (by decide))
  · exact .inr (.inr (by decide))
  · exact .inr (.inr (by decide))

/-! ## Targets -/

/-- The target is the place `p`, or a directory that `p` lies in. -/
def Leads (t : FileTree) (cwd : Place) (target : String) (p : Place) : Prop :=
  ∃ q found, t.find cwd target = .ok (q, found) ∧
    (p = q ∨ (found = .directory ∧ q <+: p))

variable {t t' : FileTree} {cwd p : Place}

theorem SameShape.leads (h : SameShape t t') {target : String} (hleads : t.Leads cwd target p) :
    t'.Leads cwd target p := by
  obtain ⟨q, found, hfind, hp⟩ := hleads
  obtain ⟨found', hfind', hkind⟩ := h.find hfind
  refine ⟨q, found', hfind', hp.imp_right ?_⟩
  rintro ⟨rfl, hunder⟩
  cases found' with
  | file content => cases hkind
  | directory => exact ⟨rfl, hunder⟩

theorem mem_below {q : Place} : p ∈ t.below q ↔ p ∈ t.places ∧ q <+: p ∧ q ≠ p := by
  rw [below, List.mem_filter, Bool.and_eq_true, List.isPrefixOf_iff_prefix, decide_eq_true_eq]
  refine and_congr_right fun _ => and_congr_right fun hunder => ?_
  constructor
  · rintro hlength rfl
    exact Nat.lt_irrefl _ hlength
  · exact fun hne => Nat.lt_of_le_of_ne hunder.length_le fun hlength =>
      hne (hunder.eq_of_length hlength)

theorem mem_reach {target : String} {ps : List Place} (h : t.reach cwd target = .ok ps) :
    p ∈ ps ↔ p ∈ t.places ∧ t.Leads cwd target p := by
  unfold reach at h
  split at h
  · cases h
  · rename_i q content hfind
    cases h
    have hq : q ∈ t.places := mem_places.2 ⟨content, at?_eq_file.1 (find_eq_ok_iff.1 hfind).2⟩
    constructor
    · intro hp
      obtain rfl := List.mem_singleton.1 hp
      exact ⟨hq, p, _, hfind, .inl rfl⟩
    · rintro ⟨_, q', found, hfind', hp⟩
      rw [hfind] at hfind'
      cases hfind'
      rcases hp with rfl | ⟨hdir, _⟩
      · exact List.mem_singleton_self _
      · cases hdir
  · rename_i q hfind
    cases h
    rw [mem_below]
    have hq : q ∉ t.places := not_mem_places_of_directory (find_eq_ok_iff.1 hfind).2
    constructor
    · rintro ⟨hp, hunder, _⟩
      exact ⟨hp, q, _, hfind, .inr ⟨rfl, hunder⟩⟩
    · rintro ⟨hplace, q', found, hfind', hp⟩
      rw [hfind] at hfind'
      cases hfind'
      rcases hp with rfl | ⟨_, hunder⟩
      · exact absurd hplace hq
      · exact ⟨hplace, hunder, fun heq => hq (heq ▸ hplace)⟩

theorem exists_reach_iff {target : String} :
    (∃ ps, t.reach cwd target = .ok ps) ↔ ∃ x, t.find cwd target = .ok x := by
  unfold reach
  split
  · rename_i hfind
    simp [hfind]
  · rename_i hfind
    simp [hfind]
  · rename_i hfind
    simp [hfind]

theorem mem_reachAll {targets : List String} : ∀ {ps : List Place},
    t.reachAll cwd targets = .ok ps →
      (p ∈ ps ↔ p ∈ t.places ∧ ∃ target ∈ targets, t.Leads cwd target p) := by
  induction targets with
  | nil =>
    rintro ps ⟨⟩
    simp
  | cons target targets ih =>
    intro ps h
    unfold reachAll at h
    split at h
    · cases h
    · rename_i ps₁ hreach
      split at h
      · cases h
      · rename_i ps₂ hrest
        cases h
        rw [List.mem_append, mem_reach hreach, ih hrest, ← and_or_left]
        simp

theorem exists_reachAll_iff {targets : List String} :
    (∃ ps, t.reachAll cwd targets = .ok ps) ↔
      ∀ target ∈ targets, ∃ x, t.find cwd target = .ok x := by
  induction targets with
  | nil => simp [reachAll]
  | cons target targets ih =>
    rw [List.forall_mem_cons, ← ih, ← exists_reach_iff]
    simp only [reachAll]
    cases t.reach cwd target with
    | error e => simp
    | ok ps =>
      cases t.reachAll cwd targets with
      | error e => simp
      | ok qs => simp

/-- The program files that targets lead to are those that are a target or lie in one. -/
theorem mem_sources {targets : List String} {ps : List Place}
    (h : t.sources cwd targets = .ok ps) :
    p ∈ ps ↔ p.isSource = true ∧ p ∈ t.places ∧ ∃ target ∈ targets, t.Leads cwd target p := by
  unfold sources at h
  split at h
  · cases h
  · rename_i qs hreach
    cases h
    rw [List.mem_mergeSort, List.mem_eraseDups, List.mem_filter, mem_reachAll hreach, and_comm]

/-- Targets lead to program files, if only to none, unless one leads to nothing. -/
theorem exists_sources_iff {targets : List String} :
    (∃ ps, t.sources cwd targets = .ok ps) ↔
      ∀ target ∈ targets, ∃ x, t.find cwd target = .ok x := by
  rw [← exists_reachAll_iff]
  unfold sources
  cases t.reachAll cwd targets with
  | error e => simp
  | ok ps => simp

/-- In a tree of the same shape, targets lead to the same program files. -/
theorem SameShape.sources (h : SameShape t t') {targets : List String} {ps : List Place}
    (hps : t.sources cwd targets = .ok ps) :
    ∃ ps', t'.sources cwd targets = .ok ps' ∧ ∀ p, p ∈ ps' ↔ p ∈ ps := by
  have hfound := exists_sources_iff.1 ⟨ps, hps⟩
  obtain ⟨ps', hps'⟩ : ∃ ps', t'.sources cwd targets = .ok ps' := by
    refine exists_sources_iff.2 fun target htarget => ?_
    obtain ⟨⟨q, found⟩, hfind⟩ := hfound target htarget
    obtain ⟨found', hfind', _⟩ := h.find hfind
    exact ⟨_, hfind'⟩
  refine ⟨ps', hps', fun p => ?_⟩
  have hleads : ∀ target, t'.Leads cwd target p ↔ t.Leads cwd target p :=
    fun target => ⟨h.symm.leads, h.leads⟩
  simp only [mem_sources hps', mem_sources hps, h.places, hleads]

end FileTree

end BlockCalc
