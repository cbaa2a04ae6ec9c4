import BlockCalc.Proofs.Detection
import BlockCalc.Proofs.FormattedFiles

/-!
# BlockCalc.Proofs.CommandDepth

How deep a program may nest for a command. To run, to show and to analyze a program is a matter of
the depth that was set, and formatting it is one of the default depth, whatever was set. What is
accepted within a depth is accepted within a greater one, and for every depth there is a program
that nests just as deep. So the commands agree on a program unless it needs a depth between the
two, and they agree on all programs only if the depth that was set is the default.
-/

namespace BlockCalc

/-! ## Depths -/

/-- The text is a program that nests no deeper than the limit. -/
def AcceptedWithin (limit : Nat) (t : Text) : Prop := ∃ p, Program.parse limit t = .ok p

theorem not_acceptedWithin {limit : Nat} {t : Text} {r : Rejection}
    (h : Program.parse limit t = .error r) : ¬AcceptedWithin limit t := by
  rintro ⟨p, hp⟩
  rw [h] at hp
  cases hp

instance (limit : Nat) (t : Text) : Decidable (AcceptedWithin limit t) :=
  match h : Program.parse limit t with
  | .ok p => isTrue ⟨p, h⟩
  | .error _ => isFalse (not_acceptedWithin h)

theorem AcceptedWithin.mono {m n : Nat} {t : Text} (h : AcceptedWithin m t) (hmn : m ≤ n) :
    AcceptedWithin n t := by
  obtain ⟨p, hp⟩ := h
  obtain ⟨ts, hts, k, hk, hd⟩ := Program.parse_eq_ok_iff.1 hp
  exact ⟨p, Program.parse_eq_ok_iff.2 ⟨ts, hts, k, by omega, hd⟩⟩

/-- Two depths differ on the programs that are accepted within one of them only. -/
theorem acceptedWithin_iff_iff {m n : Nat} {t : Text} :
    (AcceptedWithin m t ↔ AcceptedWithin n t) ↔
      (AcceptedWithin (max m n) t → AcceptedWithin (min m n) t) := by
  rcases Nat.le_total m n with h | h
  · rw [Nat.max_eq_right h, Nat.min_eq_left h]
    exact ⟨fun hiff => hiff.2, fun hback => ⟨fun hm => hm.mono h, hback⟩⟩
  · rw [Nat.max_eq_left h, Nat.min_eq_right h]
    exact ⟨fun hiff => hiff.1, fun hback => ⟨hback, fun hn => hn.mono h⟩⟩

/-- Blocks in one another, the innermost of them empty. -/
def Stmts.blocks : Nat → Stmts
  | 0 => .one (.empty default)
  | n + 1 => .one (.block default (blocks n))

theorem Stmts.nesting_blocks (n : Nat) : (blocks n).nesting = n := by
  induction n with
  | zero => rfl
  | succ n ih => simp only [blocks, Stmts.nesting, Stmt.nesting, ih]

theorem Stmts.wellFormed_blocks (n : Nat) : (blocks n).WellFormed := by
  induction n with
  | zero => trivial
  | succ n ih => simpa only [blocks, Stmts.WellFormed, Stmt.WellFormed] using ih

/-- A program that nests `n + 1` deep. -/
def nestedSource (n : Nat) : Text := Text.ofString (Program.mk default (Stmts.blocks n)).layout

theorem acceptedWithin_nestedSource {limit n : Nat} :
    AcceptedWithin limit (nestedSource n) ↔ n ≤ limit - 1 := by
  have hnesting : (Program.mk default (Stmts.blocks n)).nesting = n + 1 := by
    rw [Program.nesting, Stmts.nesting_blocks]
  have hparse : ∀ {k : Nat}, n ≤ k - 1 → ∃ p, Program.parse k (nestedSource n) = .ok p ∧
      p.bare = (Program.mk default (Stmts.blocks n)).bare := fun hk =>
    Program.parse_layout (Stmts.wellFormed_blocks n) (by rw [hnesting]; omega)
  constructor
  · rintro ⟨p, hp⟩
    -- The tree is the one that a depth great enough gives, and its nesting is known.
    obtain ⟨p', hp', hbare⟩ := hparse (k := n + 1) (Nat.le_refl n)
    obtain rfl := Program.parse_unique hp hp'
    have hn := (Program.wellFormed_of_parse hp).2
    rw [← Program.nesting_bare, hbare, Program.nesting_bare, hnesting] at hn
    exact Nat.le_of_succ_le_succ hn
  · intro h
    obtain ⟨p, hp, -⟩ := hparse h
    exact ⟨p, hp⟩

theorem forall_acceptedWithin_iff {m n : Nat} (hm : 0 < m) (hn : 0 < n) :
    (∀ t, AcceptedWithin m t ↔ AcceptedWithin n t) ↔ n = m := by
  constructor
  · intro h
    have hm' := (acceptedWithin_nestedSource.symm.trans (h (nestedSource (m - 1)))).1
    have hn' := (acceptedWithin_nestedSource.symm.trans (h (nestedSource (n - 1)))).2
    rw [acceptedWithin_nestedSource] at hm' hn'
    omega
  · rintro rfl t
    exact Iff.rfl

/-! ## Set depths -/

theorem Engine.maxDepth_of_ofOptions {o : EngineOptions} {e : Engine} (h : ofOptions o = .ok e) :
    e.maxDepth = if o.maxDepth ≤ 0 then defaultDepth else o.maxDepth.toNat := by
  unfold ofOptions at h
  dsimp only at h
  split at h
  · cases h
    rfl
  · split at h
    · cases h
      rfl
    · cases h

theorem Setup.maxDepth_of_make {fs : Flags} {i : Invocation} {s : Setup} (h : make fs i = .ok s) :
    s.journal.engine.maxDepth =
      if s.config.maxDepth ≤ 0 then Engine.defaultDepth else s.config.maxDepth.toNat := by
  obtain ⟨c, level, engine, _, _, hengine, rfl⟩ := make_eq_ok_iff.1 h
  exact Engine.maxDepth_of_ofOptions hengine

theorem Setup.maxDepth_pos {fs : Flags} {i : Invocation} {s : Setup} (h : make fs i = .ok s) :
    0 < s.journal.engine.maxDepth := by
  have hdefault : 0 < Engine.defaultDepth := by decide
  rw [maxDepth_of_make h]
  split
  · exact hdefault
  · omega

/-- A positive depth among the flags is the depth. -/
theorem Setup.maxDepth_of_flag {fs : Flags} {i : Invocation} {s : Setup} (h : make fs i = .ok s)
    {d : Nat} (hd : 0 < d) (hflag : fs.maxDepth = some (d : Int)) :
    s.journal.engine.maxDepth = d := by
  have hdepth : s.config.maxDepth = d := by
    obtain ⟨c, level, engine, _, _, _, rfl⟩ := make_eq_ok_iff.1 h
    rw [override, hflag, Option.getD_some]
  rw [maxDepth_of_make h, hdepth, if_neg (by omega), Int.toNat_natCast]

/-! ## Commands -/

/-- The command stopped at a text that is not accepted. -/
def Outcome.isRejection (o : Outcome) : Bool :=
  match o.error with
  | some (.failed _ _ (.rejected _)) => true
  | _ => false

namespace Setup

variable {s : Setup} {i : Invocation} {source : Text}

theorem isRejection_run :
    (s.run i source).isRejection = false ↔ AcceptedWithin s.journal.engine.maxDepth source := by
  unfold run
  cases hp : s.journal.engine.parse source with
  | error r =>
    rw [Engine.run, hp]
    exact iff_of_false Bool.false_ne_true.symm (not_acceptedWithin hp)
  | ok p =>
    refine iff_of_true ?_ ⟨p, hp⟩
    rw [Engine.run_of_parse hp]
    -- There is an environment, with a fault of the run or without one.
    generalize Tree.evalAll _ _ _ = r
    cases hfault : r.fault? <;> rfl

theorem isRejection_analyze {path : String} :
    (s.analyze i path source).isRejection = false ↔
      AcceptedWithin s.journal.engine.maxDepth source := by
  unfold analyze
  cases hp : s.journal.engine.parse source with
  | error r => exact iff_of_false Bool.false_ne_true.symm (not_acceptedWithin hp)
  | ok p =>
    refine iff_of_true ?_ ⟨p, hp⟩
    dsimp only
    cases p.warnings <;> rfl

theorem isRejection_ast {raw : Bool} :
    (s.ast i raw source).isRejection = false ↔
      AcceptedWithin s.journal.engine.maxDepth source ∨
        ∃ x, Expr.parse s.journal.engine.maxDepth source = .ok x := by
  unfold ast parseTree
  cases hmode : detectMode source with
  | program =>
    have hnone : ¬∃ x, Expr.parse s.journal.engine.maxDepth source = .ok x := by
      rintro ⟨x, hx⟩
      cases hmode.symm.trans (Engine.detectMode_of_parseExpression hx)
    rw [or_iff_left hnone]
    cases hp : s.journal.engine.parse source with
    | error r => exact iff_of_false Bool.false_ne_true.symm (not_acceptedWithin hp)
    | ok p => exact iff_of_true rfl ⟨p, hp⟩
  | expression =>
    have hnone : ¬AcceptedWithin s.journal.engine.maxDepth source := by
      rintro ⟨p, hp⟩
      cases hmode.symm.trans (Engine.detectMode_of_parse hp)
    rw [or_iff_right hnone]
    cases hx : s.journal.engine.parseExpression source with
    | error r =>
      refine iff_of_false Bool.false_ne_true.symm ?_
      rintro ⟨x, hx'⟩
      cases hx.symm.trans hx'
    | ok x => exact iff_of_true rfl ⟨x, hx⟩

end Setup

namespace Invocation

variable {i : Invocation} {path : String} {p : Place} {source : Text}

/-- A dash is no program file. -/
theorem ne_dash_of_isSource (hlocate : i.tree.locate i.cwd path = .ok p)
    (hp : p.isSource = true) : path ≠ "-" := by
  rintro rfl
  obtain ⟨name, hname, hlast⟩ := FileTree.exists_last_of_locate hlocate
  have hdash : (Path.splitSlashes "-").getLast? = some "-" := by decide
  rw [hdash] at hname
  cases hname
  rcases hlast with hlast | hname
  · rw [Place.isSource, hlast] at hp
    exact absurd hp (by decide)
  · exact absurd hname (by decide)

theorem withSource_of_find (hfind : i.tree.find i.cwd path = .ok (p, .file source))
    (hp : p.isSource = true) (f : Text → Outcome) : i.withSource path f = f source := by
  have hdash := ne_dash_of_isSource (FileTree.find_eq_ok_iff.1 hfind).1 hp
  rw [withSource, readSource, if_neg hdash, FileTree.read, hfind]

theorem sources_of_find (hfind : i.tree.find i.cwd path = .ok (p, .file source))
    (hp : p.isSource = true) : i.tree.sources i.cwd [path] = .ok [p] := by
  have hreach : i.tree.reachAll i.cwd [path] = .ok [p] := by
    simp only [FileTree.reachAll, FileTree.reach, hfind, List.append_nil]
  rw [FileTree.sources, hreach]
  dsimp only
  rw [List.filter_cons_of_pos hp, List.filter_nil, List.eraseDups_cons, List.filter_nil,
    List.eraseDups_nil, List.mergeSort_singleton]

theorem isRejection_format (hfind : i.tree.find i.cwd path = .ok (p, .file source))
    (hp : p.isSource = true) (mode : FormatMode) :
    (i.format [path] mode).isRejection = false ↔
      AcceptedWithin Engine.defaultDepth source := by
  have hat := (FileTree.find_eq_ok_iff.1 hfind).2
  have hstart : (Formatting.start i.tree).tree.at? p = some (.file source) := hat
  rw [format, sources_of_find hfind hp]
  dsimp only
  cases hparse : Program.parse Engine.defaultDepth source with
  | error r =>
    have hformat : formatSource source = .error r := by rw [formatSource, hparse]
    simp only [Formatting.run, hstart, hformat]
    exact iff_of_false Bool.false_ne_true.symm (not_acceptedWithin hparse)
  | ok prog =>
    have hformat := formatSource_eq_ok_iff.2 ⟨prog, hparse, rfl⟩
    simp only [Formatting.run, hstart, hformat]
    refine iff_of_true ?_ ⟨prog, hparse⟩
    unfold Outcome.isRejection
    dsimp only
    split
    · rename_i h
      split at h <;> cases h
    · rfl

end Invocation

namespace Job

/-- The command gets past reading the text. -/
def Passes (fs : Flags) (a : Action) (i : Invocation) : Prop :=
  ((⟨fs, a⟩ : Job).run i).isRejection = false

instance (fs : Flags) (a : Action) (i : Invocation) : Decidable (Passes fs a i) :=
  inferInstanceAs (Decidable (_ = false))

section

variable {fs : Flags} {i : Invocation} {s : Setup} {path : String} {p : Place} {source : Text}

theorem passes_iff {a : Action} (hmake : Setup.make fs i = .ok s) (ha : a ≠ .explain) :
    Passes fs a i ↔ (perform s i a).isRejection = false := by
  have herror : ((⟨fs, a⟩ : Job).run i).error = (perform s i a).error :=
    (run_of_make ⟨fs, a⟩ hmake ha).2.2
  rw [Passes, Outcome.isRejection, herror]
  rfl

variable (hmake : Setup.make fs i = .ok s)
  (hfind : i.tree.find i.cwd path = .ok (p, .file source)) (hp : p.isSource = true)

include hmake hfind hp

theorem passes_format_iff (write check : Bool) :
    Passes fs (.format [path] write check) i ↔ AcceptedWithin Engine.defaultDepth source :=
  (passes_iff hmake (by simp)).trans (Invocation.isRejection_format hfind hp ⟨write, check⟩)

theorem passes_run_iff :
    Passes fs (.run path) i ↔ AcceptedWithin s.journal.engine.maxDepth source := by
  rw [passes_iff hmake (by simp), perform, Invocation.withSource_of_find hfind hp]
  exact Setup.isRejection_run

theorem passes_analyze_iff :
    Passes fs (.analyze path) i ↔ AcceptedWithin s.journal.engine.maxDepth source := by
  rw [passes_iff hmake (by simp), perform, Invocation.withSource_of_find hfind hp]
  exact Setup.isRejection_analyze

theorem passes_ast_iff (raw : Bool) :
    Passes fs (.ast path raw) i ↔ AcceptedWithin s.journal.engine.maxDepth source ∨
      ∃ x, Expr.parse s.journal.engine.maxDepth source = .ok x := by
  rw [passes_iff hmake (by simp), perform, Invocation.withSource_of_find hfind hp]
  exact Setup.isRejection_ast

end

/-- A program file is formatted if it is accepted within the default depth. It is run, analyzed and
shown if it is accepted within the depth that was set, and shown also if it is an expression. So
formatting and running agree on the file unless it needs more than one of the depths allows and no
more than the other, and on all files only if the two depths are the same. -/
theorem passes_within_depth {fs : Flags} {i : Invocation} {s : Setup} {path : String} {p : Place}
    {source : Text} (hmake : Setup.make fs i = .ok s)
    (hfind : i.tree.find i.cwd path = .ok (p, .file source)) (hp : p.isSource = true)
    (write check raw : Bool) :
    let depth := s.journal.engine.maxDepth
    (depth = if s.config.maxDepth ≤ 0 then Engine.defaultDepth else s.config.maxDepth.toNat) ∧
    (∀ d : Nat, 0 < d → fs.maxDepth = some (d : Int) → depth = d) ∧
    (Passes fs (.format [path] write check) i ↔ AcceptedWithin Engine.defaultDepth source) ∧
    (Passes fs (.run path) i ↔ AcceptedWithin depth source) ∧
    (Passes fs (.analyze path) i ↔ AcceptedWithin depth source) ∧
    (Passes fs (.ast path raw) i ↔
      AcceptedWithin depth source ∨ ∃ x, Expr.parse depth source = .ok x) ∧
    ((Passes fs (.format [path] write check) i ↔ Passes fs (.run path) i) ↔
      (AcceptedWithin (max Engine.defaultDepth depth) source →
        AcceptedWithin (min Engine.defaultDepth depth) source)) ∧
    ((∀ t, AcceptedWithin Engine.defaultDepth t ↔ AcceptedWithin depth t) ↔
      depth = Engine.defaultDepth) := by
  intro depth
  have hformat := passes_format_iff hmake hfind hp write check
  have hrun := passes_run_iff hmake hfind hp
  refine ⟨Setup.maxDepth_of_make hmake, fun d hd hflag => Setup.maxDepth_of_flag hmake hd hflag,
    hformat, hrun, passes_analyze_iff hmake hfind hp, passes_ast_iff hmake hfind hp raw, ?_, ?_⟩
  · rw [hformat, hrun]
    exact acceptedWithin_iff_iff
  · exact forall_acceptedWithin_iff (by decide) (Setup.maxDepth_pos hmake)

/-- The flag for a depth. -/
def depthFlag (d : Nat) : Flags := { Flags.none with maxDepth := some (d : Int) }

/-- A directory with one program file. -/
def oneFile (source : Text) : Invocation :=
  { (default : Invocation) with tree := ⟨[(["a.pas"], source)], []⟩ }

theorem find_oneFile (source : Text) :
    (oneFile source).tree.find (oneFile source).cwd "a.pas" = .ok (["a.pas"], .file source) := by
  have hlocate : (oneFile source).tree.locate [] "a.pas" = .ok ["a.pas"] := by
    have hsplit : Path.splitSlashes "a.pas" = ["a.pas"] := by decide
    have hroot : (oneFile source).tree.at? [] = some .directory := rfl
    have hsize : "a.pas".utf8ByteSize ≤ 255 := by decide +kernel
    rw [FileTree.locate, if_neg (by decide), if_neg (by decide), if_neg (by omega), hsplit]
    simp [FileTree.enter, hroot, hsize]
  exact FileTree.find_eq_ok_iff.2 ⟨hlocate, rfl⟩

/-- A program one level deeper than the default, with a greater depth set. -/
theorem passes_within_depth_deeper :
    let fs := depthFlag 300
    let i := oneFile (nestedSource 256)
    i.tree.find i.cwd "a.pas" = .ok (["a.pas"], .file (nestedSource 256)) ∧
      ¬Passes fs (.format ["a.pas"] true false) i ∧ Passes fs (.run "a.pas") i ∧
      Passes fs (.analyze "a.pas") i ∧ Passes fs (.ast "a.pas" false) i := by
  intro fs i
  have hfind := find_oneFile (nestedSource 256)
  have hsetup : (Setup.make fs i).toOption.map (·.journal.engine.maxDepth) = some 300 := by
    decide +kernel
  obtain ⟨s, hmake, hdepth⟩ := exists_of_toOption_map hsetup
  obtain ⟨-, -, hformat, hrun, hanalyze, hast, -⟩ :=
    passes_within_depth hmake hfind (by decide +kernel) true false false
  rw [hdepth] at hrun hanalyze hast
  have hdeep : AcceptedWithin 300 (nestedSource 256) := acceptedWithin_nestedSource.2 (by decide)
  refine ⟨hfind, ?_, hrun.2 hdeep, hanalyze.2 hdeep, hast.2 (.inl hdeep)⟩
  rw [hformat, acceptedWithin_nestedSource]
  decide

/-- A block in a block, with a depth of one. It is formatted, and refused by all other commands. -/
theorem format_passes_beyond_depth :
    let fs := depthFlag 1
    let i := oneFile (Text.ofString "BEGIN BEGIN END END.")
    Passes fs (.format ["a.pas"] false false) i ∧ ¬Passes fs (.run "a.pas") i ∧
      ¬Passes fs (.analyze "a.pas") i ∧ ¬Passes fs (.ast "a.pas" false) i := by
  intro fs i
  have hsetup : (Setup.make fs i).toOption.map (·.journal.engine.maxDepth) = some 1 := by
    decide +kernel
  obtain ⟨s, hmake, -⟩ := exists_of_toOption_map hsetup
  refine ⟨?_, by decide +kernel, by decide +kernel, by decide +kernel⟩
  rw [passes_format_iff hmake (find_oneFile _) (by decide +kernel)]
  decide +kernel

end Job

end BlockCalc
