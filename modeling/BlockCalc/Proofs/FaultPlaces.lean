import BlockCalc.Proofs.Earliest
import BlockCalc.Proofs.Faults
import BlockCalc.Proofs.Tiling

/-!
# BlockCalc.Proofs.FaultPlaces

Where failures are reported. Scanning counts lines and columns as it goes, so every token, and the
place where scanning stops, is at the end of the text before it (`Cursor.stands_scan`). A rejection
is about a token or about the stop; a fault is about a node of the tree, which was made from a
token. So at the place of any failure stands what it is about, or the text is at its end there
(`Engine.placed_of_eval`, `Engine.placed_of_run`).
-/

namespace BlockCalc

/-! ## What stands at a place -/

/-- In the text `t`, what stands from `p` on is `v`. -/
def Stands (t : Text) (p : Position) (v : Text) : Prop :=
  ∃ u, t = u ++ v ∧ p = Position.start.past u

theorem Stands.past {t w v : Text} {p : Position} (h : Stands t p (w ++ v)) :
    Stands t (p.past w) v := by
  obtain ⟨u, rfl, rfl⟩ := h
  exact ⟨u ++ w, by rw [List.append_assoc], by rw [Position.past_append]⟩

/-- A token stands at its place. -/
def Token.Stands (t : Text) (k : Token) : Prop :=
  k.lexeme.Proper ∧ ∃ rest, BlockCalc.Stands t k.pos (k.lexeme.glyphs ++ rest)

/-- The end is where nothing is left, and a fault where no token begins. -/
def Stop.Stands (t : Text) : Stop → Prop
  | .eof q => BlockCalc.Stands t q []
  | .fault e => ∃ rest, BlockCalc.Stands t e.pos rest ∧ Text.StopsAt Glyph.isBlank rest ∧
      Cursor.NoToken rest e.cause

theorem Cursor.stands_scan {t : Text} (c : Cursor) : Stands t c.pos c.rest →
    (∀ k ∈ c.scan.tokens, k.Stands t) ∧ c.scan.stop.Stands t := by
  induction c using scan_induction with
  | @token c after k h ih =>
    intro hc
    obtain ⟨w, _, hrest, hl, _, hpos, hafter⟩ := step_token_iff.1 h
    rw [hrest] at hc
    have hk : Stands t k.pos (k.lexeme.glyphs ++ after.rest) := hpos ▸ hc.past
    obtain ⟨htokens, hstop⟩ := ih (hafter ▸ hk.past)
    rw [scan_token h]
    exact ⟨List.forall_mem_cons.2 ⟨⟨hl, _, hk⟩, htokens⟩, hstop⟩
  | @stop c s h =>
    intro hc
    rw [scan_stop h]
    refine ⟨fun k hk => absurd hk List.not_mem_nil, ?_⟩
    cases s with
    | eof q =>
      obtain ⟨_, rfl⟩ := step_eof_iff.1 h
      rw [← List.append_nil c.rest] at hc
      exact hc.past
    | fault e =>
      obtain ⟨w, rest, _, hrest, hblank, hno, hpos⟩ := step_fault_iff.1 h
      rw [hrest] at hc
      exact ⟨rest, hpos ▸ hc.past, hblank, hno⟩

theorem Scan.stands (t : Text) :
    (∀ k ∈ (Scan.ofText t).tokens, k.Stands t) ∧ (Scan.ofText t).stop.Stands t :=
  Cursor.stands_scan (Cursor.ofText t) ⟨[], rfl, rfl⟩

/-! ## What a failure is about -/

def Rejection.pos : Rejection → Position
  | .lex e => e.pos
  | .parse e => e.pos

/-- The place of a fault; a missing node has none. -/
def EvalError.pos? : EvalError → Option Position
  | .undefined _ p => some p
  | .arithmetic _ _ p => some p
  | .missingNode => none
  | .statementAsValue p => some p
  | .unsupportedUnary _ p => some p
  | .unsupportedBinary _ p => some p

def Failure.pos? : Failure → Option Position
  | .rejected r => some r.pos
  | .faulted f => f.pos?

/-- The text ends where more was expected. -/
def Failure.atEnd : Failure → Bool
  | .rejected (.parse e) => e.found.isNone
  | _ => false

/-- The code point that a word begins with. -/
def firstCode (s : String) : Option Nat := (Text.ofString s).head?.map Glyph.code

/-- The code point that begins what a failure is about: the glyph that begins no token, the token
that was not expected, the variable, or the operator. -/
def Failure.offender? : Failure → Option Nat
  | .rejected (.lex e) => some e.code
  | .rejected (.parse e) => e.found.bind fun l => firstCode l.literal
  | .faulted (.undefined x _) => firstCode x
  | .faulted (.arithmetic op _ _) => firstCode op.symbol
  | .faulted _ => none

/-- At the place of the failure the text is at its end, or goes on with what the failure is
about. -/
def Failure.Placed (t : Text) (f : Failure) : Prop :=
  ∃ pos v, f.pos? = some pos ∧ Stands t pos v ∧
    if f.atEnd then v = []
    else ∃ g rest, v = g :: rest ∧ g.isBlank = false ∧ f.offender? = some g.code

variable {t : Text}

theorem Failure.placed_of_token {f : Failure} {k : Token} (hk : k.Stands t)
    (hpos : f.pos? = some k.pos) (hend : f.atEnd = false)
    (hoffender : f.offender? = firstCode k.lexeme.literal) : f.Placed t := by
  obtain ⟨hl, rest, hstands⟩ := hk
  refine ⟨k.pos, _, hpos, hstands, ?_⟩
  obtain ⟨g, gs, hglyphs⟩ := List.exists_cons_of_ne_nil hl.glyphs_ne_nil
  have hblank := hl.stopsAt_blank rest
  rw [hglyphs] at hblank ⊢
  have hfirst : firstCode k.lexeme.literal = some g.code := by
    rw [firstCode, ← Lexeme.glyphs, hglyphs]
    rfl
  rw [hend]
  exact ⟨g, _, rfl, hblank g rfl, hoffender.trans hfirst⟩

/-! ## Rejections -/

theorem Reader.Concerns.placed {d : Nat} {r : Rejection} {us rest : List Token}
    (htokens : (Scan.ofText t).tokens = us ++ rest)
    (h : Concerns ⟨(Scan.ofText t).stop, d⟩ r rest) : (Failure.rejected r).Placed t := by
  obtain ⟨hstands, hstop⟩ := Scan.stands t
  cases r with
  | lex e =>
    obtain ⟨kinds, he⟩ | ⟨k, _, _, he⟩ := h
    · obtain ⟨_, hfault⟩ := unexpected_lex he
      simp only at hfault
      rw [hfault] at hstop
      obtain ⟨rest, hrest, hblank, hno⟩ := hstop
      refine ⟨e.pos, rest, rfl, hrest, ?_⟩
      obtain ⟨g, hg, hcode⟩ := Option.map_eq_some_iff.1 hno.head_code
      obtain ⟨gs, rfl⟩ := List.head?_eq_some_iff.1 hg
      exact ⟨g, gs, rfl, hblank g rfl, congrArg some hcode.symm⟩
    · cases he
  | parse e =>
    have hat := h.isAt
    cases rest with
    | nil =>
      obtain ⟨heof, hfound⟩ := hat
      simp only at heof
      rw [heof] at hstop
      refine ⟨e.pos, [], rfl, hstop, ?_⟩
      have hend : (Failure.rejected (.parse e)).atEnd = true := by
        rw [Failure.atEnd, hfound]
        rfl
      rw [hend]
      rfl
    | cons k after =>
      obtain ⟨hpos, hfound⟩ := hat
      have hk : k.Stands t := hstands k (by rw [htokens]; simp)
      refine Failure.placed_of_token hk (congrArg some hpos) ?_ ?_
      · rw [Failure.atEnd, hfound]
        rfl
      · rw [Failure.offender?, hfound]
        rfl

/-! ## Faults -/

/-- The fault is of the name or of the operation that the token stands for. -/
inductive EvalError.About : EvalError → Token → Prop where
  | name (x : String) (p : Position) : About (.undefined x p) ⟨.ident x, p⟩
  | sign (s : Sign) (cause : ArithError) (p : Position) :
      About (.arithmetic s.kind cause p) ⟨s.lexeme, p⟩
  | operator (op : BinaryOp) (cause : ArithError) (p : Position) :
      About (.arithmetic op.kind cause p) ⟨op.lexeme, p⟩

theorem EvalError.About.placed {f : EvalError} {k : Token} (h : f.About k) (hk : k.Stands t) :
    (Failure.faulted f).Placed t := by
  cases h with
  | name x p => exact Failure.placed_of_token hk rfl rfl rfl
  | sign s cause p => exact Failure.placed_of_token hk rfl rfl (by cases s <;> rfl)
  | operator op cause p => exact Failure.placed_of_token hk rfl rfl (by cases op <;> rfl)

/-- A token that is no integer can be told by its mark. -/
theorem Token.eq_of_mark_eq {k k' : Token} (h : k'.mark = k.mark)
    (hint : k.lexeme.kind ≠ .integer) : k' = k := by
  obtain ⟨l, p⟩ := k
  obtain ⟨l', p'⟩ := k'
  obtain ⟨hkind, hname, _, hpos⟩ := Mark.mk.inj h
  simp only at hkind hname hpos hint
  rw [hpos]
  by_cases hident : l.kind = .ident
  · cases l <;> cases hident
    cases l' <;> cases hkind
    cases hname
    rfl
  · rw [Lexeme.eq_of_kind_eq hkind.symm hint hident]

theorem EvalError.About.kind_ne_integer {f : EvalError} {k : Token} (h : f.About k) :
    k.lexeme.kind ≠ .integer := by
  cases h with
  | name x p => simp [Lexeme.kind]
  | sign s cause p => cases s <;> simp [Sign.lexeme, Lexeme.kind]
  | operator op cause p => cases op <;> simp [BinaryOp.lexeme, Lexeme.kind]

theorem EvalError.About.placed_of_mark {f : EvalError} {k : Token} (h : f.About k)
    (hmark : k.mark ∈ marksOf (Scan.ofText t).tokens) : (Failure.faulted f).Placed t := by
  obtain ⟨k', hk', heq⟩ := List.mem_map.1 hmark
  rw [Token.eq_of_mark_eq heq h.kind_ne_integer] at hk'
  exact h.placed ((Scan.stands t).1 k (List.mem_filter.1 hk').1)

theorem Expr.marks_of_mem_postorder {e s : Expr} (h : s ∈ e.postorder) :
    ∀ m ∈ s.marks, m ∈ e.marks := by
  induction e with
  | int v p => rw [List.mem_singleton.1 h]; exact fun m hm => hm
  | var x p => rw [List.mem_singleton.1 h]; exact fun m hm => hm
  | unary s' e p ih =>
    rcases List.mem_append.1 h with h | h
    · exact fun m hm => List.mem_cons_of_mem _ (ih h m hm)
    · rw [List.mem_singleton.1 h]; exact fun m hm => hm
  | binary op l r p ihl ihr =>
    rcases List.mem_append.1 h with h | h
    · rcases List.mem_append.1 h with h | h
      · exact fun m hm => List.mem_append_left _ (ihl h m hm)
      · exact fun m hm => List.mem_append_right _ (List.mem_cons_of_mem _ (ihr h m hm))
    · rw [List.mem_singleton.1 h]; exact fun m hm => hm

theorem Expr.about_of_fault {mode : Division} {env : Env} {e : Expr} {f : EvalError}
    (h : e.fault mode env = some f) : ∃ k, f.About k ∧ k.mark ∈ e.marks := by
  cases e with
  | int v p => cases h
  | var x p =>
    rw [fault] at h
    split at h
    · cases h
    · cases h
      exact ⟨_, .name x p, List.mem_singleton.2 rfl⟩
  | unary s e p =>
    obtain ⟨cause, _, rfl⟩ := Option.map_eq_some_iff.1 h
    exact ⟨_, .sign s cause p, by rw [s.mark_lexeme]; exact List.mem_cons_self⟩
  | binary op l r p =>
    obtain ⟨cause, _, rfl⟩ := Option.map_eq_some_iff.1 h
    exact ⟨_, .operator op cause p, by
      rw [op.mark_lexeme]; exact List.mem_append_right _ List.mem_cons_self⟩

theorem Expr.about_of_eval {mode : Division} {env : Env} {e : Expr} {f : EvalError}
    (h : e.toTree.eval mode env = (.error f, env)) : ∃ k, f.About k ∧ k.mark ∈ e.marks := by
  obtain ⟨s, hs, hfault⟩ := Expr.exists_fault_of_eval h
  obtain ⟨k, hk, hmark⟩ := Expr.about_of_fault hfault
  exact ⟨k, hk, Expr.marks_of_mem_postorder hs _ hmark⟩

mutual

theorem Stmt.marks_of_mem_assignments : ∀ (s : Stmt) {a : Assignment}, a ∈ s.assignments →
    ∀ m ∈ a.value.marks, m ∈ s.marks
  | .block _ b, _, h, m, hm => List.mem_cons_of_mem _ (b.marks_of_mem_assignments h m hm)
  | .assign _ _ _ _, _, h, m, hm => by
    rw [List.mem_singleton.1 h] at hm
    exact List.mem_cons_of_mem _ (List.mem_cons_of_mem _ hm)
  | .empty _, _, h, _, _ => absurd h List.not_mem_nil

theorem Stmts.marks_of_mem_assignments : ∀ (b : Stmts) {a : Assignment}, a ∈ b.assignments →
    ∀ m ∈ a.value.marks, m ∈ b.marks
  | .one s, _, h, m, hm => s.marks_of_mem_assignments h m hm
  | .cons s b, _, h, m, hm =>
    (List.mem_append.1 h).elim (fun h => List.mem_append_left _ (s.marks_of_mem_assignments h m hm))
      fun h => List.mem_append_right _ (b.marks_of_mem_assignments h m hm)

end

/-! ## Whole texts -/

theorem Engine.placed_of_eval {e : Engine} {f : Failure} (h : e.eval t = .error f) :
    f.Placed t := by
  cases hx : e.parseExpression t with
  | error r =>
    rw [Engine.eval, hx] at h
    cases h
    obtain ⟨us, rest, htokens, _, hr⟩ := (Reader.loneExpression_precise hx).concerns
    exact hr.placed htokens
  | ok x =>
    have heval := Engine.eval_of_parseExpression hx
    rcases x.eval_cases e.division Env.empty with ⟨v, hv⟩ | ⟨g, hg⟩
    · rw [heval.1 v hv] at h
      cases h
    · rw [heval.2 g hg] at h
      cases h
      obtain ⟨k, hk, hmark⟩ := Expr.about_of_eval hg
      obtain ⟨ts, ⟨q, hq⟩, n, _, hd⟩ := Expr.parse_eq_ok_iff.1 hx
      have hmarks : x.marks = marksOf ts := hd.marks
      refine hk.placed_of_mark ?_
      rw [hq, ← hmarks]
      exact hmark

theorem Engine.placed_of_run {e : Engine} {f : Failure} (h : (e.run t).failure? = some f) :
    f.Placed t := by
  cases hp : e.parse t with
  | error r =>
    rw [Engine.run, hp] at h
    cases h
    obtain ⟨us, rest, htokens, _, hr⟩ := (Reader.program_precise hp).concerns
    exact hr.placed htokens
  | ok p =>
    have hrun := Engine.run_of_parse hp
    rcases evalAll_cases e.division p.assignments Env.empty with ⟨env, _, hall⟩ |
        ⟨before, a, after, g, env, hassignments, _, hfault, hall⟩
    · rw [hrun, hall] at h
      cases h
    · rw [hrun, hall] at h
      cases h
      obtain ⟨k, hk, hmark⟩ := Expr.about_of_eval hfault
      obtain ⟨ts, ⟨q, hq⟩, n, _, hd⟩ := Program.parse_eq_ok_iff.1 hp
      have hmarks : p.marks = marksOf ts := hd.marks
      have ha : a ∈ p.body.assignments := by
        rw [← Program.assignments, hassignments]
        simp
      refine hk.placed_of_mark ?_
      rw [hq, ← hmarks]
      exact List.mem_cons_of_mem _ (p.body.marks_of_mem_assignments ha _ hmark)

end BlockCalc
