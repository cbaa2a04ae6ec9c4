import BlockCalc.Command.Run
import BlockCalc.Proofs.FileTrees
import BlockCalc.Proofs.Layout

/-!
# BlockCalc.Proofs.FormattedFiles

Writing program files back in canonical layout. Canonical source is its own format, so a file that
was written is left alone from then on, however often the targets lead to it (`WrittenBack`). All
other files stay as they were, the configuration among them, so a later command finds the same
settings and the same program files, and nothing to do with them.
-/

namespace BlockCalc

/-! ## The format of a format -/

theorem formatSource_eq_ok_iff {t f : Text} : formatSource t = .ok f ↔
    ∃ p, Program.parse Engine.defaultDepth t = .ok p ∧ Text.ofString p.layout = f := by
  unfold formatSource
  cases Program.parse Engine.defaultDepth t with
  | error r => simp
  | ok p => simp

theorem formatSource_of_formatSource {t f : Text} (h : formatSource t = .ok f) :
    formatSource f = .ok f := by
  obtain ⟨p, hp, rfl⟩ := formatSource_eq_ok_iff.1 h
  obtain ⟨hwf, hn⟩ := Program.wellFormed_of_parse hp
  obtain ⟨p', hparse, hbare⟩ := Program.parse_layout hwf hn
  refine formatSource_eq_ok_iff.2 ⟨p', hparse, ?_⟩
  rw [← p'.layout_bare, hbare, p.layout_bare]

/-! ## A run over files -/

namespace Formatting

/-- The files at `ps` were replaced by their formats, and nothing else has changed. -/
structure WrittenBack (t t' : FileTree) (ps : List Place) : Prop where
  shape : t.SameShape t'
  written : ∀ p ∈ ps, ∀ source, t.files.lookup p = some source →
    ∃ f, formatSource source = .ok f ∧ t'.files.lookup p = some f
  kept : ∀ p, p ∉ ps → t'.files.lookup p = t.files.lookup p

theorem tree_settle (w : Formatting) (p : Place) (source f : Text) :
    (w.settle ⟨true, false⟩ p source f).tree = if source = f then w.tree else w.tree.put p f := by
  unfold settle
  split <;> rfl

/-- However a file is dealt with, the files stay where they are. -/
theorem shape_settle {w : Formatting} {p : Place} (hp : p ∈ w.tree.places) (mode : FormatMode)
    (source f : Text) : w.tree.SameShape (w.settle mode p source f).tree := by
  unfold settle
  split
  · split <;> exact .refl _
  · dsimp only
    split
    · exact .put hp f
    · split <;> exact .refl _

theorem shape_run (mode : FormatMode) (ps : List Place) : ∀ w : Formatting,
    w.tree.SameShape (run mode w ps).1.tree := by
  induction ps with
  | nil => exact fun w => .refl _
  | cons p ps ih =>
    intro w
    unfold run
    split
    · rename_i source hat
      have hp : p ∈ w.tree.places := FileTree.mem_places.2 ⟨source, FileTree.at?_eq_file.1 hat⟩
      split
      · exact (shape_settle hp mode source _).trans (ih _)
      · exact .refl _
    · exact ih w

/-- When the turn of a program file comes, there is a file at its place. -/
theorem exists_file_of_run {t : FileTree} {cwd p : Place} {targets : List String}
    {before after : List Place} (hps : t.sources cwd targets = .ok (before ++ p :: after))
    (mode : FormatMode) :
    ∃ source, (run mode (start t) before).1.tree.at? p = some (.file source) := by
  have hmem : p ∈ before ++ p :: after := List.mem_append_right _ List.mem_cons_self
  obtain ⟨_, hplace, _⟩ := (FileTree.mem_sources hps).1 hmem
  have hkept := ((shape_run mode before (start t)).places p).2 hplace
  obtain ⟨source, hsource⟩ := FileTree.mem_places.1 hkept
  exact ⟨source, FileTree.at?_eq_file.2 hsource⟩

/-- The file reads its format afterwards, whether it was written or not. -/
theorem lookup_settle {w : Formatting} {p : Place} {source : Text}
    (hp : w.tree.files.lookup p = some source) (f : Text) (q : Place) :
    (w.settle ⟨true, false⟩ p source f).tree.files.lookup q =
      if q = p then some f else w.tree.files.lookup q := by
  rw [tree_settle]
  split
  · rename_i hsame
    by_cases hq : q = p
    · rw [if_pos hq, hq, hp, hsame]
    · rw [if_neg hq]
  · exact w.tree.lookup_put p q f

theorem writtenBack_settle {w : Formatting} {p : Place} {source f : Text}
    (hp : w.tree.files.lookup p = some source) (hf : formatSource source = .ok f) :
    WrittenBack w.tree (w.settle ⟨true, false⟩ p source f).tree [p] where
  shape := shape_settle (FileTree.mem_places.2 ⟨source, hp⟩) _ source f
  written := by
    intro q hq source' hsource'
    obtain rfl := List.mem_singleton.1 hq
    rw [hp] at hsource'
    cases hsource'
    exact ⟨f, hf, by rw [lookup_settle hp, if_pos rfl]⟩
  kept := by
    intro q hq
    rw [lookup_settle hp, if_neg fun heq => hq (List.mem_singleton.2 heq)]

theorem WrittenBack.cons {t t' t'' : FileTree} {p : Place} {ps : List Place}
    (h : WrittenBack t t' [p]) (h' : WrittenBack t' t'' ps) : WrittenBack t t'' (p :: ps) where
  shape := h.shape.trans h'.shape
  written := by
    intro q hq source hsource
    by_cases hqp : q = p
    · obtain ⟨f, hf, hf'⟩ := h.written q (List.mem_singleton.2 hqp) source hsource
      refine ⟨f, hf, ?_⟩
      by_cases hqs : q ∈ ps
      · -- The file is written once more, with the format of its format.
        obtain ⟨f', hff, hf''⟩ := h'.written q hqs f hf'
        rw [formatSource_of_formatSource hf] at hff
        cases hff
        exact hf''
      · rw [h'.kept q hqs, hf']
    · have hqs : q ∈ ps := (List.mem_cons.1 hq).resolve_left hqp
      exact h'.written q hqs source
        (by rw [h.kept q fun hmem => hqp (List.mem_singleton.1 hmem), hsource])
  kept := by
    intro q hq
    rw [List.mem_cons, not_or] at hq
    rw [h'.kept q hq.2, h.kept q fun hmem => hq.1 (List.mem_singleton.1 hmem)]

theorem writtenBack_run {ps : List Place} : ∀ {w w' : Formatting},
    run ⟨true, false⟩ w ps = (w', none) → WrittenBack w.tree w'.tree ps := by
  induction ps with
  | nil =>
    rintro w w' ⟨⟩
    exact ⟨.refl _, fun _ hp => absurd hp List.not_mem_nil, fun _ _ => rfl⟩
  | cons p ps ih =>
    intro w w' h
    unfold run at h
    split at h
    · rename_i source hat
      split at h
      · rename_i f hf
        exact (writtenBack_settle (FileTree.at?_eq_file.1 hat) hf).cons (ih h)
      · cases h
    · -- There is no file, so there is nothing to be written.
      rename_i hnone
      refine WrittenBack.cons ⟨.refl _, ?_, fun _ _ => rfl⟩ (ih h)
      intro q hq source hsource
      rw [List.mem_singleton.1 hq] at hsource
      exact absurd (FileTree.at?_eq_file.2 hsource) (hnone source)

/-- Where all files are in canonical layout, there is nothing to be written or listed. -/
theorem run_of_canonical {mode : FormatMode} (hmode : (mode.write || mode.check) = true)
    {w : Formatting} {ps : List Place}
    (h : ∀ p ∈ ps, ∀ source, w.tree.files.lookup p = some source →
      formatSource source = .ok source) : run mode w ps = (w, none) := by
  induction ps with
  | nil => rfl
  | cons p ps ih =>
    obtain ⟨hp, hps⟩ := List.forall_mem_cons.1 h
    unfold run
    split
    · rename_i source hat
      rw [hp source (FileTree.at?_eq_file.1 hat)]
      have hsettle : w.settle mode p source source = w := by
        rw [settle, if_pos rfl, if_pos hmode]
      dsimp only
      rw [hsettle, ih hps]
    · exact ih hps

end Formatting

/-! ## The command -/

open Formatting

theorem Invocation.writtenBack_format {i : Invocation} {targets : List String}
    (h : (i.format targets ⟨true, false⟩).error = none) :
    ∃ ps, i.tree.sources i.cwd targets = .ok ps ∧
      WrittenBack i.tree (i.format targets ⟨true, false⟩).tree ps := by
  unfold Invocation.format at h ⊢
  split at h
  · cases h
  · rename_i ps hps
    rw [hps]
    refine ⟨ps, rfl, ?_⟩
    split at h
    · cases h
    · rename_i hrun
      exact writtenBack_run hrun

/-- What is done with files that are all in canonical layout. -/
theorem Invocation.format_of_canonical {i : Invocation} {targets : List String} {ps : List Place}
    {mode : FormatMode} (hmode : (mode.write || mode.check) = true)
    (hps : i.tree.sources i.cwd targets = .ok ps)
    (h : ∀ p ∈ ps, ∀ source, i.tree.files.lookup p = some source →
      formatSource source = .ok source) :
    i.format targets mode = ⟨[], [], i.tree, none⟩ := by
  have hrun : run mode (start i.tree) ps = (start i.tree, none) :=
    run_of_canonical hmode h
  have hnone : (mode.check && decide (0 < (start i.tree).changed)) = false := Bool.and_false _
  simp only [Invocation.format, hps, hrun, hnone]
  rfl

theorem Invocation.format_of_writtenBack {i : Invocation} {tree : FileTree} {targets : List String}
    {ps : List Place} {mode : FormatMode} (hmode : (mode.write || mode.check) = true)
    (hps : i.tree.sources i.cwd targets = .ok ps) (h : WrittenBack i.tree tree ps) :
    { i with tree := tree }.format targets mode = ⟨[], [], tree, none⟩ := by
  obtain ⟨ps', hps', hsame⟩ := h.shape.sources hps
  refine format_of_canonical hmode hps' fun p hp source hsource => ?_
  obtain ⟨before, hbefore⟩ : ∃ before, i.tree.files.lookup p = some before :=
    FileTree.mem_places.1 ((h.shape.places p).1 (FileTree.mem_places.2 ⟨source, hsource⟩))
  obtain ⟨f, hf, hwritten⟩ := h.written p ((hsame p).1 hp) before hbefore
  have hcontent : some source = some f := hsource.symm.trans hwritten
  cases hcontent
  exact formatSource_of_formatSource hf

/-! ## The configuration -/

theorem Config.extension_of_ofContent {path : String} {content : Text} {c : Config}
    (h : ofContent path content = .ok c) :
    lowerString (Path.extension path) ∈ [".toml", ".yaml", ".yml"] := by
  unfold ofContent at h
  dsimp only at h
  split at h
  · rename_i hext
    simp [hext]
  · rename_i hext
    simp [hext]
  · rename_i hext
    simp [hext]
  · cases h

/-- A configuration is never read from a program file. -/
theorem Config.isSource_of_ofContent {t : FileTree} {cwd q : Place} {path : String}
    {content : Text} {c : Config} (hlocate : t.locate cwd path = .ok q)
    (h : ofContent path content = .ok c) : q.isSource = false := by
  rw [Bool.eq_false_iff]
  intro hq
  have hext := extension_of_ofContent h
  rcases FileTree.extension_of_isSource hlocate hq with hpath | hpath | hpath <;>
    exact absurd (hpath ▸ hext) (by decide)

theorem Config.load_of_writtenBack {t t' : FileTree} {ps : List Place} {cwd : Place} {path : String}
    {c : Config} (h : WrittenBack t t' ps) (hps : ∀ p ∈ ps, p.isSource = true)
    (hload : load t cwd path = .ok c) : load t' cwd path = .ok c := by
  unfold load at hload ⊢
  split at hload
  · rename_i hpath
    rw [if_pos hpath, hload]
  · rename_i hpath
    rw [if_neg hpath]
    split at hload
    · cases hload
    · rename_i content hread
      split at hload
      · cases hload
      · rename_i hcontent
        obtain ⟨q, hlocate, hlookup⟩ := FileTree.read_eq_ok_iff.1 hread
        have hq : q ∉ ps := fun hmem =>
          Bool.false_ne_true ((isSource_of_ofContent hlocate hcontent).symm.trans (hps q hmem))
        have hread' : t'.read cwd path = .ok content :=
          FileTree.read_eq_ok_iff.2
            ⟨q, by rw [h.shape.locate, hlocate], by rw [h.kept q hq, hlookup]⟩
        rw [hread']
        dsimp only
        rw [hcontent]
        exact hload

/-! ## One command after another -/

/-- A later call from the same directory, which finds the files as they were left. -/
def Invocation.after (i : Invocation) (o : Outcome) (stdin : Text) (stamp : Stamp) : Invocation :=
  { i with tree := o.tree, stdin := stdin, stamp := stamp }

/-- The command that formats the targets among the flags, told to write or to check. -/
def Job.format (fs : Flags) (write check : Bool) : Job :=
  let fs := { fs with write := write, check := check }
  ⟨fs, actionOf .format fs⟩

/-- A setup is made of the configuration that is read, with what the flags say instead. -/
theorem Setup.make_eq_ok_iff {fs : Flags} {i : Invocation} {s : Setup} :
    make fs i = .ok s ↔ ∃ c level engine, Config.load i.tree i.cwd (path fs i) = .ok c ∧
      LogLevel.parse (override c fs).logLevel = .ok level ∧
      Engine.ofOptions ⟨(override c fs).maxDepth, (override c fs).division⟩ = .ok engine ∧
      s = ⟨override c fs, ⟨engine, level = .debug, i.stamp⟩⟩ := by
  constructor
  · intro h
    unfold make at h
    split at h
    · cases h
    · rename_i c hload
      dsimp only at h
      split at h
      · cases h
      · rename_i level hlevel
        split at h
        · cases h
        · rename_i engine hengine
          cases h
          exact ⟨c, level, engine, hload, hlevel, hengine, rfl⟩
  · rintro ⟨c, level, engine, hload, hlevel, hengine, rfl⟩
    simp only [make, hload, hlevel, hengine]

theorem Setup.exists_make_after {fs : Flags} {i : Invocation} {s : Setup} {o : Outcome}
    {ps : List Place} (hmake : make fs i = .ok s) (h : WrittenBack i.tree o.tree ps)
    (hps : ∀ p ∈ ps, p.isSource = true) (stdin : Text) (stamp : Stamp) :
    ∃ s', make fs (i.after o stdin stamp) = .ok s' := by
  obtain ⟨c, level, engine, hload, hlevel, hengine, _⟩ := make_eq_ok_iff.1 hmake
  exact ⟨_, make_eq_ok_iff.2
    ⟨c, level, engine, Config.load_of_writtenBack h hps hload, hlevel, hengine, rfl⟩⟩

/-- A job adds to what its action does only what it logs. -/
theorem Job.run_of_make (job : Job) {i : Invocation} {s : Setup}
    (h : Setup.make job.flags i = .ok s) (hjob : job.action ≠ .explain) :
    (job.run i).stdout = (perform s i job.action).stdout ∧
      (job.run i).tree = (perform s i job.action).tree ∧
      (job.run i).error = (perform s i job.action).error := by
  rw [Job.run, if_neg hjob, h]
  exact ⟨rfl, rfl, rfl⟩

theorem Job.exists_make_of_run {job : Job} {i : Invocation} (h : (job.run i).error = none)
    (hjob : job.action ≠ .explain) : ∃ s, Setup.make job.flags i = .ok s := by
  rw [Job.run, if_neg hjob] at h
  split at h
  · cases h
  · rename_i s hmake
    exact ⟨s, hmake⟩

theorem Setup.make_format (fs : Flags) (write check : Bool) (i : Invocation) :
    make (Job.format fs write check).flags i = make fs i := by
  rw [Job.format]
  simp only [make, path, override]

theorem Job.format_ne_explain (fs : Flags) (write check : Bool) :
    (Job.format fs write check).action ≠ .explain := by
  simp [Job.format, actionOf]

theorem Job.run_format {fs : Flags} {i : Invocation} {s : Setup} (h : Setup.make fs i = .ok s)
    (write check : Bool) :
    ((Job.format fs write check).run i).stdout = (i.format fs.rest ⟨write, check⟩).stdout ∧
      ((Job.format fs write check).run i).tree = (i.format fs.rest ⟨write, check⟩).tree ∧
      ((Job.format fs write check).run i).error = (i.format fs.rest ⟨write, check⟩).error :=
  run_of_make _ ((Setup.make_format fs write check i).trans h) (format_ne_explain fs write check)

/-- After the program files of some targets were written back without an error, a check of these
targets lists nothing and writing them back again changes nothing. The files that were written are
the program files the targets lead to; all other files are as they were, and there are no new
ones. -/
theorem Job.format_settles {fs : Flags} {i : Invocation}
    (h : ((Job.format fs true false).run i).error = none) (stdin : Text) (stamp : Stamp) :
    let o := (Job.format fs true false).run i
    let checked := (Job.format fs false true).run (i.after o stdin stamp)
    let again := (Job.format fs true false).run (i.after o stdin stamp)
    (checked.error = none ∧ checked.stdout = [] ∧ checked.tree = o.tree) ∧
      (again.error = none ∧ again.tree = o.tree) ∧
      i.tree.SameShape o.tree ∧
      ∀ p source, i.tree.at? p = some (.file source) →
        ((p.isSource = true ∧ ∃ target ∈ fs.rest, i.tree.Leads i.cwd target p) →
          ∃ f, formatSource source = .ok f ∧ o.tree.at? p = some (.file f)) ∧
        (¬(p.isSource = true ∧ ∃ target ∈ fs.rest, i.tree.Leads i.cwd target p) →
          o.tree.at? p = some (.file source)) := by
  intro o checked again
  obtain ⟨s, hmake⟩ := exists_make_of_run h (format_ne_explain fs true false)
  rw [Setup.make_format] at hmake
  obtain ⟨_, htree, herror⟩ := run_format hmake true false
  obtain ⟨ps, hps, hwritten⟩ := Invocation.writtenBack_format (herror.symm.trans h)
  rw [← htree] at hwritten
  have hsource : ∀ p ∈ ps, p.isSource = true := fun p hp => ((FileTree.mem_sources hps).1 hp).1
  obtain ⟨s', hmake'⟩ := Setup.exists_make_after hmake hwritten hsource stdin stamp
  have hlater : ∀ {mode : FormatMode}, (mode.write || mode.check) = true →
      (i.after o stdin stamp).format fs.rest mode = ⟨[], [], o.tree, none⟩ := fun hmode =>
    Invocation.format_of_writtenBack (i := { i with stdin := stdin, stamp := stamp }) hmode hps
      hwritten
  have hchecked := run_format hmake' false true
  have hagain := run_format hmake' true false
  rw [hlater rfl] at hchecked hagain
  refine ⟨⟨hchecked.2.2, hchecked.1, hchecked.2.1⟩, ⟨hagain.2.2, hagain.2.1⟩, hwritten.shape, ?_⟩
  · intro p source hp
    rw [FileTree.at?_eq_file] at hp
    have hplace : p ∈ i.tree.places := FileTree.mem_places.2 ⟨source, hp⟩
    have hmem : p ∈ ps ↔ p.isSource = true ∧ ∃ target ∈ fs.rest, i.tree.Leads i.cwd target p := by
      rw [FileTree.mem_sources hps, and_iff_right hplace]
    simp only [← hmem, FileTree.at?_eq_file]
    exact ⟨fun hin => hwritten.written p hin source hp,
      fun hout => by rw [hwritten.kept p hout, hp]⟩

/-- Two program files, one of them in a directory, with a note and a configuration beside them. -/
def sketches : Invocation :=
  { (default : Invocation) with
    tree := ⟨[(["w", "a.pas"], Text.ofString "BEGIN x:=1 END."),
      (["w", "lib", "b.pas"], Text.ofString "BEGIN\n  y := 2\nEND.\n"),
      (["w", "lib", "b.txt"], Text.ofString "BEGIN x:=1 END."),
      (["w", "calc.toml"], Text.ofString "max_depth = 9\n")], []⟩
    cwd := ["w"]
    configPath := "calc.toml" }

theorem sources_sketches : sketches.tree.sources sketches.cwd ["lib/../a.pas", "."] =
    .ok [["w", "a.pas"], ["w", "lib", "b.pas"]] := by
  have h : (sketches.tree.reachAll sketches.cwd ["lib/../a.pas", "."]).toOption.map
      (fun ps => (ps.filter Place.isSource).eraseDups) =
        some [["w", "a.pas"], ["w", "lib", "b.pas"]] := by
    decide +kernel
  obtain ⟨ps, hps, hsources⟩ := exists_of_toOption_map h
  rw [FileTree.sources, hps]
  dsimp only
  rw [hsources, List.mergeSort_of_pairwise (by decide +kernel)]

/-- Both targets lead to the first file, and one of them to everything. -/
theorem Job.format_settles_sketches :
    let fs := { Flags.none with rest := ["lib/../a.pas", "."] }
    let o := (Job.format fs true false).run sketches
    let checked := (Job.format fs false true).run (sketches.after o [] default)
    let again := (Job.format fs true false).run (sketches.after o [] default)
    o.error = none ∧ (checked.error = none ∧ checked.stdout = []) ∧ again.tree = o.tree ∧
      o.tree.at? ["w", "a.pas"] = some (.file (Text.ofString "BEGIN\n  x := 1\nEND.\n")) ∧
      o.tree.at? ["w", "lib", "b.txt"] = some (.file (Text.ofString "BEGIN x:=1 END.")) := by
  intro fs o checked again
  have herror : o.error = none := by
    have hmake : (Setup.make fs sketches).toOption.map (·.config.maxDepth) = some 9 := by
      decide +kernel
    obtain ⟨s, hs, -⟩ := exists_of_toOption_map hmake
    have hrun : (Formatting.run ⟨true, false⟩ (start sketches.tree)
        [["w", "a.pas"], ["w", "lib", "b.pas"]]).2.isNone = true := by
      decide +kernel
    refine (run_format hs true false).2.2.trans ?_
    rw [Invocation.format, sources_sketches]
    dsimp only
    split
    · rename_i hbad
      rw [hbad] at hrun
      cases hrun
    · rfl
  obtain ⟨⟨hchecked, hsilent, -⟩, ⟨-, hagain⟩, -, hfiles⟩ := Job.format_settles herror [] default
  refine ⟨herror, ⟨hchecked, hsilent⟩, hagain, ?_, ?_⟩
  · have hfind : (sketches.tree.find sketches.cwd "lib/../a.pas").toOption.map (·.1) =
        some ["w", "a.pas"] := by
      decide +kernel
    obtain ⟨⟨q, found⟩, hfound, rfl⟩ := exists_of_toOption_map hfind
    obtain ⟨f, hf, hat⟩ := (hfiles ["w", "a.pas"] (Text.ofString "BEGIN x:=1 END.")
      (by decide +kernel)).1
        ⟨by decide +kernel, "lib/../a.pas", List.mem_cons_self, _, found, hfound, .inl rfl⟩
    have hformat : (formatSource (Text.ofString "BEGIN x:=1 END.")).toOption.map id =
        some (Text.ofString "BEGIN\n  x := 1\nEND.\n") := by
      decide +kernel
    obtain ⟨f', hf', rfl⟩ := exists_of_toOption_map hformat
    rw [hf] at hf'
    cases hf'
    exact hat
  · refine (hfiles ["w", "lib", "b.txt"] _ (by decide +kernel)).2 ?_
    rintro ⟨hsource, -⟩
    exact absurd hsource (by decide +kernel)

end BlockCalc
