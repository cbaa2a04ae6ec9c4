import BlockCalc.Proofs.Grammar

/-!
# BlockCalc.Proofs.Places

Trees up to the places of their nodes. `bare` puts every node at the same place, so two trees have
the same bare form when they differ in places at most.

`Derives.relabel`: tokens with the same lexemes derive the same phrases up to places, with the
same nesting.
-/

namespace BlockCalc

/-- A place that no token has. -/
def Position.nowhere : Position := ⟨0, 0⟩

def Expr.bare : Expr → Expr
  | .int v _ => .int v .nowhere
  | .var x _ => .var x .nowhere
  | .unary s e _ => .unary s e.bare .nowhere
  | .binary op l r _ => .binary op l.bare r.bare .nowhere

mutual

def Stmt.bare : Stmt → Stmt
  | .block _ b => .block .nowhere b.bare
  | .assign x _ e _ => .assign x .nowhere e.bare .nowhere
  | .empty _ => .empty .nowhere

def Stmts.bare : Stmts → Stmts
  | .one s => .one s.bare
  | .cons s b => .cons s.bare b.bare

end

def Program.bare (p : Program) : Program := ⟨.nowhere, p.body.bare⟩

theorem Expr.bare_bare (e : Expr) : e.bare.bare = e.bare := by
  induction e with
  | int v p => rfl
  | var x p => rfl
  | unary s e p ih => simp only [bare, ih]
  | binary op l r p ihl ihr => simp only [bare, ihl, ihr]

mutual

theorem Stmt.bare_bare : ∀ s : Stmt, s.bare.bare = s.bare
  | .block p b => by simp only [Stmt.bare, b.bare_bare]
  | .assign x p e q => by simp only [Stmt.bare, e.bare_bare]
  | .empty p => rfl

theorem Stmts.bare_bare : ∀ b : Stmts, b.bare.bare = b.bare
  | .one s => by simp only [Stmts.bare, s.bare_bare]
  | .cons s b => by simp only [Stmts.bare, s.bare_bare, b.bare_bare]

end

theorem Program.bare_bare (p : Program) : p.bare.bare = p.bare := by
  simp only [Program.bare, p.body.bare_bare]

/-- The lexemes of a list of tokens, without the places. -/
def lexemes (ts : List Token) : List Lexeme := ts.map (·.lexeme)

@[simp] theorem lexemes_nil : lexemes [] = [] := rfl

@[simp] theorem lexemes_cons (t : Token) (ts : List Token) :
    lexemes (t :: ts) = t.lexeme :: lexemes ts := rfl

@[simp] theorem lexemes_append (ts us : List Token) :
    lexemes (ts ++ us) = lexemes ts ++ lexemes us := List.map_append

theorem lexemes_eq_nil {us : List Token} (h : lexemes us = lexemes []) : us = [] :=
  List.map_eq_nil_iff.1 h

theorem lexemes_eq_cons {us ts : List Token} {l : Lexeme} {p : Position}
    (h : lexemes us = lexemes (⟨l, p⟩ :: ts)) :
    ∃ q vs, us = ⟨l, q⟩ :: vs ∧ lexemes vs = lexemes ts := by
  rw [lexemes_cons] at h
  obtain ⟨t, vs, rfl, rfl, hvs⟩ := List.map_eq_cons_iff.1 h
  exact ⟨t.pos, vs, rfl, hvs⟩

theorem lexemes_eq_single {us : List Token} {l : Lexeme} {p : Position}
    (h : lexemes us = lexemes [⟨l, p⟩]) : ∃ q, us = [⟨l, q⟩] := by
  obtain ⟨q, vs, rfl, hvs⟩ := lexemes_eq_cons h
  obtain rfl := lexemes_eq_nil hvs
  exact ⟨q, rfl⟩

theorem lexemes_eq_append {us ts ts' : List Token} (h : lexemes us = lexemes (ts ++ ts')) :
    ∃ vs ws, us = vs ++ ws ∧ lexemes vs = lexemes ts ∧ lexemes ws = lexemes ts' := by
  rw [lexemes_append] at h
  exact List.map_eq_append_iff.1 h

namespace Grammar

/-- Tokens with the lexemes `ls` derive a phrase that is `x` up to places, nested `n` deep. The
places that a phrase hands on, those of the left operand and of the next token, are given. -/
def DerivesBare : Phrase → List Lexeme → Nat → Prop
  | .factor e, ls, n => ∀ us, lexemes us = ls → ∃ e', e'.bare = e.bare ∧ Derives (.factor e') us n
  | .chain k e, ls, n => ∀ us, lexemes us = ls →
      ∃ e', e'.bare = e.bare ∧ Derives (.chain k e') us n
  | .tail k l e, ls, n => ∀ us l', lexemes us = ls → l'.bare = l.bare →
      ∃ e', e'.bare = e.bare ∧ Derives (.tail k l' e') us n
  | .statement s _, ls, n => ∀ us next, lexemes us = ls →
      ∃ s', s'.bare = s.bare ∧ Derives (.statement s' next) us n
  | .statements b _, ls, n => ∀ us next, lexemes us = ls →
      ∃ b', b'.bare = b.bare ∧ Derives (.statements b' next) us n
  | .compound _ b, ls, n => ∀ us, lexemes us = ls →
      ∃ p b', b'.bare = b.bare ∧ Derives (.compound p b') us n
  | .program p, ls, n => ∀ us, lexemes us = ls →
      ∃ p', p'.bare = p.bare ∧ Derives (.program p') us n

theorem DerivesBare.operand {k : Level} {e : Expr} {ls : List Lexeme} {n : Nat}
    (h : DerivesBare (k.operand e) ls n) {us : List Token} (hus : lexemes us = ls) :
    ∃ e', e'.bare = e.bare ∧ Derives (k.operand e') us n := by
  cases k <;> exact h us hus

theorem Derives.relabel {x : Phrase} {ts : List Token} {n : Nat} (h : Derives x ts n) :
    DerivesBare x (lexemes ts) n := by
  induction h with
  | @integer digits v p =>
    intro us hus
    obtain ⟨q, rfl⟩ := lexemes_eq_single hus
    exact ⟨.int v q, rfl, .integer⟩
  | @name x p =>
    intro us hus
    obtain ⟨q, rfl⟩ := lexemes_eq_single hus
    exact ⟨.var x q, rfl, .name⟩
  | group _ ih =>
    intro us hus
    obtain ⟨p, vs, rfl, hvs⟩ := lexemes_eq_cons hus
    obtain ⟨ws, zs, rfl, hws, hzs⟩ := lexemes_eq_append hvs
    obtain ⟨q, rfl⟩ := lexemes_eq_single hzs
    obtain ⟨e', he', hd⟩ := ih ws hws
    exact ⟨e', he', .group hd⟩
  | sign _ ih =>
    intro us hus
    obtain ⟨p, vs, rfl, hvs⟩ := lexemes_eq_cons hus
    obtain ⟨e', he', hd⟩ := ih vs hvs
    exact ⟨_, by simp only [Expr.bare, he'], .sign hd⟩
  | chain _ _ ihl ih =>
    intro us hus
    obtain ⟨vs, ws, rfl, hvs, hws⟩ := lexemes_eq_append hus
    obtain ⟨l', hl', hdl⟩ := ihl.operand hvs
    obtain ⟨e', he', hde⟩ := ih ws l' hws hl'
    exact ⟨e', he', .chain hdl hde⟩
  | done =>
    intro us l' hus hl'
    obtain rfl := lexemes_eq_nil hus
    exact ⟨l', hl', .done⟩
  | @more k op l r e ts us m n p hk _ _ ihr ih =>
    intro us' l' hus hl'
    obtain ⟨q, vs, rfl, hvs⟩ := lexemes_eq_cons hus
    obtain ⟨ws, zs, rfl, hws, hzs⟩ := lexemes_eq_append hvs
    obtain ⟨r', hr', hdr⟩ := ihr.operand hws
    obtain ⟨e', he', hde⟩ := ih zs (.binary op l' r' q) hzs (by simp only [Expr.bare, hl', hr'])
    exact ⟨e', he', .more hk hdr hde⟩
  | empty =>
    intro us next hus
    obtain rfl := lexemes_eq_nil hus
    exact ⟨.empty next, rfl, .empty⟩
  | assign _ ih =>
    intro us next hus
    obtain ⟨p, vs, rfl, hvs⟩ := lexemes_eq_cons hus
    obtain ⟨q, ws, rfl, hws⟩ := lexemes_eq_cons hvs
    obtain ⟨e', he', hd⟩ := ih ws hws
    exact ⟨_, by simp only [Stmt.bare, he'], .assign hd⟩
  | block _ ih =>
    intro us next hus
    obtain ⟨p, b', hb', hd⟩ := ih us hus
    exact ⟨_, by simp only [Stmt.bare, hb'], .block hd⟩
  | one _ ih =>
    intro us next hus
    obtain ⟨s', hs', hd⟩ := ih us next hus
    exact ⟨_, by simp only [Stmts.bare, hs'], .one hd⟩
  | cons _ _ ihs ih =>
    intro us next hus
    obtain ⟨vs, ws, rfl, hvs, hws⟩ := lexemes_eq_append hus
    obtain ⟨q, zs, rfl, hzs⟩ := lexemes_eq_cons hws
    obtain ⟨s', hs', hds⟩ := ihs vs q hvs
    obtain ⟨b', hb', hdb⟩ := ih zs next hzs
    exact ⟨_, by simp only [Stmts.bare, hs', hb'], .cons hds hdb⟩
  | compound _ ih =>
    intro us hus
    obtain ⟨p, vs, rfl, hvs⟩ := lexemes_eq_cons hus
    obtain ⟨ws, zs, rfl, hws, hzs⟩ := lexemes_eq_append hvs
    obtain ⟨q, rfl⟩ := lexemes_eq_single hzs
    obtain ⟨b', hb', hd⟩ := ih ws q hws
    exact ⟨p, b', hb', .compound hd⟩
  | program _ ih =>
    intro us hus
    obtain ⟨vs, ws, rfl, hvs, hws⟩ := lexemes_eq_append hus
    obtain ⟨q, rfl⟩ := lexemes_eq_single hws
    obtain ⟨p, b', hb', hd⟩ := ih vs hvs
    exact ⟨⟨p, b'⟩, by simp only [Program.bare, hb'], .program hd⟩

end Grammar
end BlockCalc
