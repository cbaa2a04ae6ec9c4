import BlockCalc.Proofs.Alike
import BlockCalc.Proofs.Bytes
import BlockCalc.Proofs.Reformatting

/-!
# BlockCalc.Proofs.ExpressionPrograms

Expressions and programs agree. An expression that is accepted alone is accepted as the value of an
assignment, one block deeper (`Program.parse_assigning`); its lexemes are the same there, since
blanks stand around it. The assignment is then run as the expression is evaluated, up to the
places of faults.
-/

namespace BlockCalc

open Grammar

/-- The source of a program that assigns the expression `src` to `r`. -/
def assigning (src : List UInt8) : List UInt8 :=
  Text.toBytes (Text.ofString "BEGIN r := ") ++ (src ++ Text.toBytes (Text.ofString " END."))

theorem ofBytes_assigning (src : List UInt8) :
    Text.ofBytes (assigning src) =
      Text.ofString "BEGIN r :=" ++
        .char ' ' :: (Text.ofBytes src ++ .char ' ' :: Text.ofString "END.") := by
  have hend : Text.ofBytes (src ++ Text.toBytes (Text.ofString " END.")) =
      Text.ofBytes src ++ Text.ofBytes (Text.toBytes (Text.ofString " END.")) :=
    Text.ofBytes_append (b := 32) (by decide) src _
  rw [assigning, Text.ofBytes_ofString_append, hend, Text.ofBytes_toBytes_ofString]
  rfl

theorem spells_assigning {src : List UInt8} {ls : List Lexeme} (h : Spells (Text.ofBytes src) ls) :
    Spells (Text.ofBytes (assigning src))
      ([.beginWord, .ident "r", .assign] ++ (ls ++ [.endWord, .dot])) := by
  have hbegin : Spells (Text.ofString "BEGIN r :=") [.beginWord, .ident "r", .assign] :=
    spells_iff.2 ⟨[⟨.beginWord, ⟨1, 1⟩⟩, ⟨.ident "r", ⟨1, 7⟩⟩, ⟨.assign, ⟨1, 9⟩⟩],
      ⟨⟨1, 11⟩, by decide +kernel⟩, rfl⟩
  have hend : Spells (Text.ofString "END.") [.endWord, .dot] :=
    spells_iff.2 ⟨[⟨.endWord, ⟨1, 1⟩⟩, ⟨.dot, ⟨1, 4⟩⟩], ⟨⟨1, 5⟩, by decide +kernel⟩, rfl⟩
  have hblank : Glyph.isBlank (.char ' ') = true := by decide
  rw [ofBytes_assigning]
  exact (spells_append_blank hblank).2
    ⟨_, _, hbegin, (spells_append_blank hblank).2 ⟨_, _, h, hend, rfl⟩, rfl⟩

/-- The program that assigns `x` to `r`. -/
def Expr.assigned (x : Expr) (pos namePos assignPos : Position) : Program :=
  ⟨pos, .one (.assign "r" namePos x assignPos)⟩

/-- Tokens with the lexemes of an expression and of the assignment around it are a program. -/
theorem Grammar.Derives.assigned {x : Expr} {ts : List Token} {n : Nat}
    (h : Derives (.expression x) ts n) {us : List Token}
    (hlexemes :
      lexemes us = [.beginWord, .ident "r", .assign] ++ (lexemes ts ++ [.endWord, .dot])) :
    ∃ p q r, ∃ x' : Expr, x'.bare = x.bare ∧ Derives (.program (x'.assigned p q r)) us (n + 1) := by
  have hus : lexemes us = lexemes (⟨.beginWord, .nowhere⟩ :: ⟨.ident "r", .nowhere⟩ ::
      ⟨.assign, .nowhere⟩ :: (ts ++ [⟨.endWord, .nowhere⟩] ++ [⟨.dot, .nowhere⟩])) := by
    rw [hlexemes, List.append_assoc]
    simp only [lexemes_append, lexemes_cons, List.cons_append, List.nil_append, lexemes_nil]
  obtain ⟨p, vs, rfl, hvs⟩ := lexemes_eq_cons hus
  obtain ⟨q, ws, rfl, hws⟩ := lexemes_eq_cons hvs
  obtain ⟨r, zs, rfl, hzs⟩ := lexemes_eq_cons hws
  obtain ⟨zs', ds, rfl, hzs', hds⟩ := lexemes_eq_append hzs
  obtain ⟨xs, es, rfl, hxs, hes⟩ := lexemes_eq_append hzs'
  obtain ⟨_, rfl⟩ := lexemes_eq_single hds
  obtain ⟨_, rfl⟩ := lexemes_eq_single hes
  obtain ⟨x', hbare, hd⟩ := h.relabel xs hxs
  exact ⟨p, q, r, x', hbare, .program (.compound (.one (.assign hd)))⟩

theorem Program.parse_assigning {limit : Nat} {src : List UInt8} {x : Expr}
    (h : Expr.parse limit (Text.ofBytes src) = .ok x) :
    ∃ p q r, ∃ x' : Expr, x'.bare = x.bare ∧
      Program.parse (limit + 1) (Text.ofBytes (assigning src)) = .ok (x'.assigned p q r) := by
  obtain ⟨ts, hts, n, hn, hd⟩ := Expr.parse_eq_ok_iff.1 h
  obtain ⟨us, hus, hlexemes⟩ := spells_iff.1 (spells_assigning (spells_iff.2 ⟨ts, hts, rfl⟩))
  obtain ⟨p, q, r, x', hbare, hp⟩ := hd.assigned hlexemes
  exact ⟨p, q, r, x', hbare, Program.parse_eq_ok_iff.2 ⟨us, hus, n + 1, by omega, hp⟩⟩

/-- What an engine does with an assignment that it accepts. -/
theorem Engine.run_assigned {e : Engine} {t : Text} {x : Expr} {p q r : Position}
    (h : e.parse t = .ok (x.assigned p q r)) :
    (∀ v, x.toTree.eval e.division Env.empty = (.ok (.int v), Env.empty) →
      e.run t = .ran (x.assigned p q r) (Env.empty.set "r" v) none) ∧
    ∀ f, x.toTree.eval e.division Env.empty = (.error f, Env.empty) →
      e.run t = .ran (x.assigned p q r) Env.empty (some f) := by
  have hrun := Engine.run_of_parse h
  let a : Assignment := ⟨"r", q, x, r⟩
  change e.run t = .ran _ (Tree.evalAll e.division [a.toTree] Env.empty).2
    (Tree.evalAll e.division [a.toTree] Env.empty).fault? at hrun
  constructor
  · intro v hv
    rw [hrun, Assignment.evalAll_ok (a := a) hv]
    rfl
  · intro f hf
    rw [hrun, Assignment.evalAll_error (a := a) hf]
    rfl

/-- An expression that is accepted alone is accepted as the value of an assignment, one level
deeper. The program binds the variable to the value of the expression and nothing else; or both
fail in the same way, and the program has bound nothing. -/
theorem Engine.run_assigning {e : Engine} {src : List UInt8} {x : Expr}
    (h : e.parseExpression (Text.ofBytes src) = .ok x) :
    let deeper : Engine := { e with maxDepth := e.maxDepth + 1 }
    let t := Text.ofBytes (assigning src)
    ∃ p, deeper.parse t = .ok p ∧
      ((∃ v, e.eval (Text.ofBytes src) = .ok v ∧
        deeper.run t = .ran p (Env.empty.set "r" v) none) ∨
      ∃ f f', e.eval (Text.ofBytes src) = .error (.faulted f) ∧
        deeper.run t = .ran p Env.empty (some f') ∧ FailAlike (some f) (some f')) := by
  intro deeper t
  obtain ⟨p, q, r, x', hbare, hp⟩ := Program.parse_assigning h
  have hparse : deeper.parse t = .ok (x'.assigned p q r) := hp
  have heval := Engine.eval_of_parseExpression h
  have hrun := Engine.run_assigned hparse
  have hcongr := Expr.eval_congr hbare e.division Env.empty
  refine ⟨_, hparse, ?_⟩
  rcases x.eval_cases e.division Env.empty with ⟨v, hv⟩ | ⟨f, hf⟩
  · rw [hv] at hcongr
    exact .inl ⟨v, heval.1 v hv, hrun.1 v (Evaluated.eq_of_bare_eq_ok hcongr)⟩
  · rcases Evaluated.cases_of_bare_eq hcongr with ⟨a, env, hx, _⟩ | ⟨g, f', env, hbare, hx, hx'⟩
    · cases hf.symm.trans hx
    · obtain ⟨rfl, rfl⟩ : f = g ∧ Env.empty = env := by
        cases hf.symm.trans hx
        exact ⟨rfl, rfl⟩
      exact .inr ⟨f, f', heval.2 f hf, hrun.2 f' hx', (Engine.ordinary_of_eval h hf).failAlike hbare⟩

/-- The sign and the group are as deep as the engine allows, and the expression reads the variable
that it is assigned to. -/
theorem Engine.run_assigning_unbound :
    let e : Engine := ⟨2, .floor⟩
    let src := "-(1\n/r)".toUTF8.toList
    e.eval (Text.ofBytes src) = .error (.faulted (.undefined "r" ⟨2, 2⟩)) ∧
      ∃ p q, (⟨3, .floor⟩ : Engine).run (Text.ofBytes (assigning src)) =
        .ran p Env.empty (some (.undefined "r" q)) := by
  intro e src
  have h : (e.parseExpression (Text.ofBytes src)).toOption.map (fun x =>
      (x.toTree.eval .floor Env.empty).fault?) = some (some (.undefined "r" ⟨2, 2⟩)) := by
    decide +kernel
  obtain ⟨x, hx, hfault⟩ := exists_of_toOption_map h
  rcases x.eval_cases .floor Env.empty with ⟨v, hv⟩ | ⟨f, hf⟩
  · rw [hv] at hfault
    cases hfault
  · rw [hf] at hfault
    cases hfault
    have heval := (Engine.eval_of_parseExpression hx).2 _ hf
    obtain ⟨p, _, ⟨v, hv, _⟩ | ⟨g, g', hg, hrun, halike⟩⟩ := Engine.run_assigning hx
    · cases heval.symm.trans hv
    · cases heval.symm.trans hg
      cases halike
      exact ⟨heval, p, _, hrun⟩

end BlockCalc
