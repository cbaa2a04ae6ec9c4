import BlockCalc.Proofs.Acceptance
import BlockCalc.Proofs.Bytes
import BlockCalc.Proofs.FileTrees

/-!
# BlockCalc.Proofs.SourceLists

The list of program files that targets lead to, as a list of absolute paths. Each path is that of
one place (`Path.parts_render`), so a list without repeated places, in the order of the paths, is
strictly ascending, and is known from its members alone. Hence it does not matter in which order
the targets are given, how often, or whether one lies in another.

The place that a path leads to is told by the words of the path (`FileTree.absolute_of_locate`).
-/

namespace BlockCalc

/-! ## Paths of places -/

/-- A name that a directory can have an entry by. -/
structure Path.IsEntry (name : String) : Prop where
  ne_empty : name ≠ ""
  ne_dot : name ≠ "."
  ne_up : name ≠ ".."
  no_slash : '/' ∉ name.toList

instance : DecidablePred Path.IsEntry := fun name =>
  decidable_of_iff (name ≠ "" ∧ name ≠ "." ∧ name ≠ ".." ∧ '/' ∉ name.toList)
    ⟨fun h => ⟨h.1, h.2.1, h.2.2.1, h.2.2.2⟩, fun h => ⟨h.1, h.2, h.3, h.4⟩⟩

/-- All the names on the way are those of entries of directories. -/
def Place.Proper (p : Place) : Prop := ∀ name ∈ p, Path.IsEntry name

namespace Path

theorem splitSlashes_append (p q : String) :
    splitSlashes (p ++ "/" ++ q) = splitSlashes p ++ splitSlashes q := by
  have hslash : Text.ofString "/" = [.char '/'] := rfl
  rw [splitSlashes, Text.ofString_append, Text.ofString_append, hslash, List.append_assoc,
    List.singleton_append, Text.splitAt_append, List.map_append]
  rfl

theorem splitSlashes_of_no_slash {name : String} (h : '/' ∉ name.toList) :
    splitSlashes name = [name] := by
  refine splitSlashes_of_not_mem fun hmem => ?_
  obtain ⟨c, hc, heq⟩ := List.mem_map.1 hmem
  cases heq
  exact h hc

theorem splitSlashes_intercalate {p : Place} (hne : p ≠ []) (h : p.Proper) :
    splitSlashes ("/".intercalate p) = p := by
  induction p with
  | nil => exact absurd rfl hne
  | cons name p ih =>
    obtain ⟨hname, hp⟩ := List.forall_mem_cons.1 h
    cases p with
    | nil => rw [String.intercalate_singleton, splitSlashes_of_no_slash hname.no_slash]
    | cons next p =>
      rw [String.intercalate_cons_cons, splitSlashes_append,
        splitSlashes_of_no_slash hname.no_slash, ih (List.cons_ne_nil _ _) hp]
      rfl

theorem push_of_isEntry {name : String} (h : IsEntry name) (done : List String) :
    push true done name = name :: done := by
  unfold push
  rw [if_neg fun hor => hor.elim h.ne_empty h.ne_dot, if_neg h.ne_up]

theorem foldl_push_of_isEntry {p : Place} (h : p.Proper) (done : List String) :
    p.foldl (push true) done = p.reverse ++ done := by
  induction p generalizing done with
  | nil => rfl
  | cons name p ih =>
    obtain ⟨hname, hp⟩ := List.forall_mem_cons.1 h
    rw [List.foldl_cons, push_of_isEntry hname, ih hp, List.reverse_cons, List.append_assoc]
    rfl

theorem isAbsolute_iff {path : String} : isAbsolute path = true ↔ ['/'] <+: path.toList := by
  rw [isAbsolute, String.startsWith_string_iff]
  rfl

theorem isAbsolute_render (p : Place) : isAbsolute p.render = true := by
  rw [isAbsolute_iff, Place.render, String.toList_append]
  exact List.prefix_append _ _

theorem foldl_push_render {p : Place} (h : p.Proper) :
    (splitSlashes p.render).foldl (push true) [] = p.reverse := by
  have hroot : p.render = "" ++ "/" ++ "/".intercalate p := by
    rw [String.empty_append]
    rfl
  rw [hroot, splitSlashes_append, List.foldl_append]
  cases p with
  | nil => rfl
  | cons name p =>
    rw [splitSlashes_intercalate (List.cons_ne_nil _ _) h]
    exact (foldl_push_of_isEntry h []).trans (List.append_nil _)

/-- The components of the path of a place are the names on the way to it. -/
theorem parts_render {p : Place} (h : p.Proper) : parts p.render = p := by
  rw [parts, isAbsolute_render, foldl_push_render h, List.reverse_reverse]

theorem isAbsolute_append {p : String} (h : isAbsolute p = true) (q : String) :
    isAbsolute (p ++ q) = true := by
  rw [isAbsolute_iff, String.toList_append]
  exact (isAbsolute_iff.1 h).trans (List.prefix_append _ _)

theorem clean_of_isAbsolute {path : String} (h : isAbsolute path = true) :
    clean path = Place.render (parts path) := if_pos h

/-- The path as one from the root, by its words alone. -/
def absolute (cwd path : String) : String :=
  if isAbsolute path then clean path else join cwd path

end Path

namespace FileTree

variable {t : FileTree} {cwd : Place}

/-- Going on from a place by a name is what cleaning a path does with that name. -/
theorem push_of_enter {here c : Place} {name : String} (hup : ".." ∉ here)
    (h : t.enter here name = .ok c) :
    Path.push true here.reverse name = c.reverse ∧ ".." ∉ c := by
  unfold Path.push
  rcases enter_cases h with ⟨hname, rfl⟩ | ⟨rfl, rfl⟩ | ⟨hname, hname', rfl⟩
  · rw [if_pos hname]
    exact ⟨rfl, hup⟩
  · refine ⟨?_, fun hmem => hup (List.dropLast_subset _ hmem)⟩
    rcases here.eq_nil_or_concat with rfl | ⟨front, last, rfl⟩
    · rfl
    · have hlast : last ≠ ".." := by
        rintro rfl
        simp at hup
      simp [hlast]
  · rw [if_neg hname, if_neg hname']
    refine ⟨by simp, ?_⟩
    simp [hup, Ne.symm hname']

/-- The same for all the names of a path. While no name on the way is `..`, the place that was
reached is the clean path so far, last name first. -/
theorem foldl_push_of_foldlM {names : List String} : ∀ {here c : Place}, ".." ∉ here →
    names.foldlM t.enter here = .ok c → names.foldl (Path.push true) here.reverse = c.reverse := by
  induction names with
  | nil =>
    rintro here c _ ⟨⟩
    rfl
  | cons name names ih =>
    intro here c hup h
    rw [List.foldlM_cons] at h
    cases henter : t.enter here name with
    | error e =>
      rw [henter] at h
      cases h
    | ok c' =>
      rw [henter] at h
      obtain ⟨hpush, hup'⟩ := push_of_enter hup henter
      rw [List.foldl_cons, hpush]
      exact ih hup' h

/-- A path leads to the place that it names by its words. -/
theorem absolute_of_locate (hcwd : cwd.Proper) {path : String} {c : Place}
    (h : t.locate cwd path = .ok c) : Path.absolute cwd.render path = c.render := by
  obtain ⟨hne, hfold⟩ := foldlM_of_locate h
  have hup : ".." ∉ cwd := fun hmem => (hcwd _ hmem).ne_up rfl
  unfold Path.absolute
  -- a path that is not from the root is put behind that of the current directory
  split
  · rename_i habs
    rw [if_pos habs] at hfold
    have hpush := foldl_push_of_foldlM List.not_mem_nil hfold
    rw [List.reverse_nil] at hpush
    rw [Path.clean_of_isAbsolute habs, Path.parts, habs, hpush, List.reverse_reverse]
  · rename_i habs
    rw [if_neg habs] at hfold
    have hroot : cwd.render ≠ "" := by
      intro hempty
      have := Path.isAbsolute_render cwd
      rw [hempty] at this
      revert this
      decide
    have habs' := Path.isAbsolute_append (Path.isAbsolute_render cwd) ("/" ++ path)
    rw [← String.append_assoc] at habs'
    rw [Path.join, if_neg hroot, if_neg hne, Path.clean_of_isAbsolute habs', Path.parts, habs',
      Path.splitSlashes_append, List.foldl_append, Path.foldl_push_render hcwd,
      foldl_push_of_foldlM hup hfold, List.reverse_reverse]

end FileTree

/-! ## Names of program files -/

namespace Path

theorem extension_of_dot {name : String} {front tail : List Char} (hname : '/' ∉ name.toList)
    (hsplit : name.toList = front ++ '.' :: tail) (htail : '.' ∉ tail) :
    extension name = String.ofList ('.' :: tail) := by
  have hlast : (splitSlashes name).getLast?.getD "" = name := by
    rw [splitSlashes_of_no_slash hname]
    rfl
  have hdot : '.' ∈ name.toList := by simp [hsplit]
  have hrun : ∀ c ∈ tail.reverse, (c != '.') = true := by
    intro c hc
    refine bne_iff_ne.2 ?_
    rintro rfl
    exact htail (List.mem_reverse.1 hc)
  unfold extension
  simp only [hlast, if_pos hdot]
  rw [hsplit, List.reverse_append, List.reverse_cons, List.append_assoc,
    List.takeWhile_append_of_pos hrun]
  simp

/-- The extension is what follows the last dot, that dot included: a name has it exactly if the
name ends in it. -/
theorem extension_eq_iff {name ext : String} {tail : List Char} (hname : '/' ∉ name.toList)
    (hext : ext.toList = '.' :: tail) (htail : '.' ∉ tail) :
    extension name = ext ↔ ext.toList <:+ name.toList := by
  constructor
  · rintro rfl
    by_cases hdot : '.' ∈ name.toList
    · obtain ⟨after, before, hsplit, hafter⟩ :=
        List.eq_append_cons_of_mem (List.mem_reverse.2 hdot)
      have hname' : name.toList = before.reverse ++ '.' :: after.reverse := by
        rw [← List.reverse_reverse name.toList, hsplit]
        simp
      rw [extension_of_dot hname hname' (by simpa using hafter), String.toList_ofList, hname']
      exact List.suffix_append _ _
    · have hnone : extension name = "" := by
        unfold extension
        simp only [splitSlashes_of_no_slash hname]
        exact if_neg hdot
      rw [hnone] at hext
      cases hext
  · rw [hext]
    rintro ⟨front, hfront⟩
    rw [extension_of_dot hname hfront.symm htail, ← hext, String.ofList_toList]

end Path

theorem Place.render_inj {p q : Place} (hp : p.Proper) (hq : q.Proper) (h : p.render = q.render) :
    p = q := by
  rw [← Path.parts_render hp, h, Path.parts_render hq]

theorem Place.isSource_iff {p : Place} (hp : p.Proper) :
    p.isSource = true ↔
      ∃ name, p.getLast? = some name ∧ sourceExtension.toList <:+ name.toList := by
  have hext : sourceExtension.toList = '.' :: ['p', 'a', 's'] := by decide
  cases hlast : p.getLast? with
  | none =>
    refine iff_of_false ?_ (by simp)
    rw [List.getLast?_eq_none_iff.1 hlast]
    decide
  | some name =>
    have hname := hp name (List.mem_of_getLast? hlast)
    rw [isSource, hlast, beq_iff_eq, Option.getD_some,
      Path.extension_eq_iff hname.no_slash hext (by decide)]
    simp

/-! ## The list -/

namespace FileTree

variable {t : FileTree} {cwd : Place}

/-- The files have names that entries of directories can have. -/
def Named (t : FileTree) : Prop := ∀ p ∈ t.places, p.Proper

/-- What the target leads to is what `outer` leads to, or lies in it. -/
def Within (t : FileTree) (cwd : Place) (target outer : String) : Prop :=
  ∃ q found, t.find cwd target = .ok (q, found) ∧ t.Leads cwd outer q

theorem Within.leads {target outer : String} {p : Place} (h : t.Within cwd target outer)
    (hp : t.Leads cwd target p) : t.Leads cwd outer p := by
  obtain ⟨q, found, hfind, q', found', hfind', hq⟩ := h
  obtain ⟨_, _, hsame, hp⟩ := hp
  rw [hfind] at hsame
  cases hsame
  rcases hp with rfl | ⟨rfl, hunder⟩
  · exact ⟨q', found', hfind', hq⟩
  · refine ⟨q', found', hfind', .inr ?_⟩
    rcases hq with rfl | ⟨rfl, hunder'⟩
    · have hat := (find_eq_ok_iff.1 hfind).2
      rw [(find_eq_ok_iff.1 hfind').2] at hat
      cases hat
      exact ⟨rfl, hunder⟩
    · exact ⟨rfl, hunder'.trans hunder⟩

theorem pairwise_sorted (ps : List Place) :
    (ps.mergeSort fun p q => decide (p.render ≤ q.render)).Pairwise
      fun p q => p.render ≤ q.render := by
  refine (List.pairwise_mergeSort ?_ ?_ ps).imp of_decide_eq_true
  · intro p q r hpq hqr
    exact decide_eq_true (String.le_trans (of_decide_eq_true hpq) (of_decide_eq_true hqr))
  · intro p q
    simpa using String.le_total p.render q.render

theorem nodup_sources {targets : List String} {ps : List Place}
    (h : t.sources cwd targets = .ok ps) : ps.Nodup := by
  unfold sources at h
  split at h
  · cases h
  · cases h
    exact (List.mergeSort_perm _ _).nodup_iff.2 (nodup_eraseDups _)

variable (ht : t.Named)

include ht

/-- Places in the order of their paths, none of them twice, have paths that are all different. -/
theorem pairwise_sources {targets : List String} {ps : List Place}
    (h : t.sources cwd targets = .ok ps) : ps.Pairwise fun p q => p.render < q.render := by
  have hproper : ∀ p ∈ ps, p.Proper := fun p hp => ht p ((mem_sources h).1 hp).2.1
  have hsorted : ps.Pairwise fun p q => p.render ≤ q.render := by
    unfold sources at h
    split at h
    · cases h
    · cases h
      exact pairwise_sorted _
  refine (hsorted.and (nodup_sources h)).imp_of_mem fun hp hq hpq => ?_
  refine String.not_le.1 fun hle => hpq.2 ?_
  exact Place.render_inj (hproper _ hp) (hproper _ hq) (String.le_antisymm hpq.1 hle)

/-- A list of program files is known from its members. -/
theorem sources_eq_of_mem_iff {targets targets' : List String} {ps ps' : List Place}
    (h : t.sources cwd targets = .ok ps) (h' : t.sources cwd targets' = .ok ps')
    (hmem : ∀ p, p ∈ ps' ↔ p ∈ ps) : ps' = ps := by
  have hperm := (List.perm_ext_iff_of_nodup (nodup_sources h') (nodup_sources h)).2 hmem
  refine hperm.eq_of_pairwise ?_ (pairwise_sources ht h') (pairwise_sources ht h)
  intro p q _ _ hpq hqp
  exact absurd (String.lt_trans hpq hqp) (String.lt_irrefl _)

/-- Targets that lie in each other lead to the same list. -/
theorem sources_of_within {targets targets' : List String} {ps : List Place}
    (h : t.sources cwd targets = .ok ps)
    (hin : ∀ target ∈ targets', ∃ outer ∈ targets, t.Within cwd target outer)
    (hout : ∀ target ∈ targets, ∃ outer ∈ targets', t.Within cwd target outer) :
    t.sources cwd targets' = .ok ps := by
  obtain ⟨ps', hps'⟩ : ∃ ps', t.sources cwd targets' = .ok ps' := by
    refine exists_sources_iff.2 fun target htarget => ?_
    obtain ⟨_, _, q, found, hfind, _⟩ := hin target htarget
    exact ⟨_, hfind⟩
  have hleads : ∀ {ts us : List String} {p : Place},
      (∀ target ∈ ts, ∃ outer ∈ us, t.Within cwd target outer) →
      (∃ target ∈ ts, t.Leads cwd target p) → ∃ outer ∈ us, t.Leads cwd outer p := by
    rintro ts us p hts ⟨target, htarget, hp⟩
    obtain ⟨outer, houter, hwithin⟩ := hts target htarget
    exact ⟨outer, houter, hwithin.leads hp⟩
  rw [hps', sources_eq_of_mem_iff ht h hps' fun p => ?_]
  rw [mem_sources hps', mem_sources h]
  exact and_congr_right fun _ => and_congr_right fun _ => ⟨hleads hin, hleads hout⟩

/-- The program files that targets lead to: the absolute paths, in strictly ascending order, of
the files with the extension that are a target or lie in one at any depth. -/
theorem sources_listing {targets : List String}
    (htargets : ∀ target ∈ targets, ∃ x, t.find cwd target = .ok x) :
    ∃ ps, t.sources cwd targets = .ok ps ∧
      (ps.map Place.render).Pairwise ByteLess ∧
      (∀ p ∈ ps, Path.isAbsolute p.render = true ∧ Path.parts p.render = p) ∧
      (∀ p, p ∈ ps ↔ (∃ content, t.at? p = some (.file content)) ∧
        (∃ name, p.getLast? = some name ∧ ".pas".toList <:+ name.toList) ∧
        ∃ target ∈ targets, t.Leads cwd target p) ∧
      (cwd.Proper → ∀ target ∈ targets, ∀ q found, t.find cwd target = .ok (q, found) →
        Path.absolute cwd.render target = q.render) ∧
      ∀ targets', (∀ target ∈ targets', ∃ outer ∈ targets, t.Within cwd target outer) →
        (∀ target ∈ targets, ∃ outer ∈ targets', t.Within cwd target outer) →
        t.sources cwd targets' = .ok ps := by
  obtain ⟨ps, hps⟩ := exists_sources_iff.2 htargets
  have hplace : ∀ p ∈ ps, p ∈ t.places := fun p hp => ((mem_sources hps).1 hp).2.1
  refine ⟨ps, hps, ?_, ?_, ?_, ?_, ?_⟩
  · exact List.pairwise_map.2 ((pairwise_sources ht hps).imp byteLess_of_lt)
  · intro p hp
    exact ⟨Path.isAbsolute_render p, Path.parts_render (ht p (hplace p hp))⟩
  · intro p
    have hfile : (∃ content, t.at? p = some (.file content)) ↔ p ∈ t.places := by
      rw [mem_places]
      exact exists_congr fun content => at?_eq_file
    rw [mem_sources hps, hfile, and_left_comm]
    refine and_congr_right fun hp => and_congr_left fun _ => ?_
    exact Place.isSource_iff (ht p hp)
  · intro hcwd target _ q found hfind
    exact absolute_of_locate hcwd (find_eq_ok_iff.1 hfind).1
  · intro targets' hin hout
    exact sources_of_within ht hps hin hout

omit ht

/-- A directory with a program file and a note, and a program file beside it. -/
def shelf : FileTree :=
  ⟨[(["w", "lib", "b.pas"], []), (["w", "lib", "b.txt"], []), (["w", "a.pas"], [])], []⟩

/-- The file is a target by another path, and the directory is one twice. -/
theorem sources_listing_shelf :
    shelf.Named ∧
    (∀ target ∈ ["lib"], ∃ x, shelf.find ["w"] target = .ok x) ∧
    shelf.sources ["w"] ["lib", "/w/lib/../lib/b.pas", "lib"] = .ok [["w", "lib", "b.pas"]] := by
  have hnamed : shelf.Named := by
    unfold Named Place.Proper
    decide +kernel
  have hfound : ∀ {target : String} {x : Place × Found},
      (shelf.find ["w"] target).toOption.map id = some x → shelf.find ["w"] target = .ok x := by
    intro target x h
    obtain ⟨_, hx, rfl⟩ := exists_of_toOption_map h
    exact hx
  have hlib : shelf.find ["w"] "lib" = .ok (["w", "lib"], .directory) := hfound (by decide +kernel)
  have hfile : shelf.find ["w"] "/w/lib/../lib/b.pas" = .ok (["w", "lib", "b.pas"], .file []) :=
    hfound (by decide +kernel)
  have htargets : ∀ target ∈ ["lib"], ∃ x, shelf.find ["w"] target = .ok x := by
    simp [hlib]
  have hlisted : shelf.sources ["w"] ["lib"] = .ok [["w", "lib", "b.pas"]] := by
    have hreach : (shelf.reachAll ["w"] ["lib"]).toOption.map
        (fun ps => (ps.filter Place.isSource).eraseDups) = some [["w", "lib", "b.pas"]] := by
      decide +kernel
    obtain ⟨qs, hqs, hfiles⟩ := exists_of_toOption_map hreach
    rw [sources, hqs]
    dsimp only
    rw [hfiles, List.mergeSort_singleton]
  obtain ⟨ps, hps, -, -, -, -, hsame⟩ := sources_listing hnamed htargets
  have hself : shelf.Within ["w"] "lib" "lib" := ⟨_, _, hlib, _, _, hlib, .inl rfl⟩
  have hinner : shelf.Within ["w"] "/w/lib/../lib/b.pas" "lib" :=
    ⟨_, _, hfile, _, _, hlib, .inr ⟨rfl, ["b.pas"], rfl⟩⟩
  refine ⟨hnamed, htargets, ?_⟩
  rw [hsame _ (by simp [hself, hinner]) (by simp [hself]), ← hps, hlisted]

end FileTree
end BlockCalc
