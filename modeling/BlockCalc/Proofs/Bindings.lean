import BlockCalc.Env
import BlockCalc.Proofs.Bytes

/-!
# BlockCalc.Proofs.Bindings

What is left of a list of assignments of values. The last value that a name was given is the one
it has (`get?_setAll`), names that were given none are unbound, and all else an environment tells
(its names, their number, the printed bindings) follows from that: lists that agree on the last
values leave the same environment.
-/

namespace BlockCalc
namespace Env

/-- The environment after the names are set to the values, one after another. -/
def setAll (env : Env) (sets : List (String × Int64)) : Env :=
  sets.foldl (fun env s => env.set s.1 s.2) env

/-- The name is set to the value, and not set again after that. -/
def LastSet (sets : List (String × Int64)) (name : String) (v : Int64) : Prop :=
  ∃ before after, sets = before ++ (name, v) :: after ∧ ∀ s ∈ after, s.1 ≠ name

variable {name : String} {v : Int64} {sets : List (String × Int64)}

theorem not_lastSet_nil : ¬ LastSet [] name v := by
  rintro ⟨before, after, heq, _⟩
  simp at heq

/-- A name is set last where it is set again, or else at the head. -/
theorem lastSet_cons {s : String × Int64} :
    LastSet (s :: sets) name v ↔
      LastSet sets name v ∨ ((∀ s ∈ sets, s.1 ≠ name) ∧ s = (name, v)) := by
  constructor
  · rintro ⟨before, after, heq, hafter⟩
    cases before with
    | nil =>
      obtain ⟨rfl, rfl⟩ := List.cons.inj heq
      exact .inr ⟨hafter, rfl⟩
    | cons b before =>
      obtain ⟨rfl, rfl⟩ := List.cons.inj heq
      exact .inl ⟨before, after, rfl, hafter⟩
  · rintro (⟨before, after, rfl, hafter⟩ | ⟨hsets, rfl⟩)
    · exact ⟨s :: before, after, rfl, hafter⟩
    · exact ⟨[], sets, rfl, hsets⟩

theorem exists_lastSet_iff : (∃ v, LastSet sets name v) ↔ ∃ s ∈ sets, s.1 = name := by
  induction sets with
  | nil => simp [not_lastSet_nil]
  | cons s sets ih =>
    constructor
    · rintro ⟨v, h⟩
      rcases lastSet_cons.1 h with h | ⟨_, rfl⟩
      · obtain ⟨s', hs', heq⟩ := ih.1 ⟨v, h⟩
        exact ⟨s', List.mem_cons_of_mem _ hs', heq⟩
      · exact ⟨_, List.mem_cons_self, rfl⟩
    · rintro ⟨s', hs', rfl⟩
      by_cases hset : ∃ r ∈ sets, r.1 = s'.1
      · obtain ⟨v, h⟩ := ih.2 hset
        exact ⟨v, lastSet_cons.2 (.inl h)⟩
      · rcases List.mem_cons.1 hs' with rfl | hs'
        · exact ⟨s'.2, lastSet_cons.2 (.inr ⟨fun r hr heq => hset ⟨r, hr, heq⟩, rfl⟩)⟩
        · exact absurd ⟨s', hs', rfl⟩ hset

/-- A step of the list changes one name, and that only until the name is set again. -/
theorem get?_setAll (env : Env) :
    (env.setAll sets).get? name = some v ↔
      LastSet sets name v ∨ ((∀ s ∈ sets, s.1 ≠ name) ∧ env.get? name = some v) := by
  induction sets generalizing env with
  | nil => simp [setAll, not_lastSet_nil]
  | cons s sets ih =>
    have hstep : env.setAll (s :: sets) = (env.set s.1 s.2).setAll sets := rfl
    rw [hstep, ih, lastSet_cons, or_assoc, get?_set, List.forall_mem_cons]
    -- set again later or not, what is left is this one step
    refine or_congr_right ?_
    obtain ⟨x, w⟩ := s
    by_cases hx : x = name
    · subst hx
      simp
    · simp [hx, Ne.symm hx]

theorem get?_setAll_empty : (empty.setAll sets).get? name = some v ↔ LastSet sets name v := by
  simp [get?_setAll, get?_empty]

/-! ## What an environment tells -/

theorem lookup_of_mem {l : List (String × Int64)} (hl : l.Pairwise (fun a b => a.1 < b.1))
    {b : String × Int64} (hb : b ∈ l) : l.lookup b.1 = some b.2 := by
  induction l with
  | nil => cases hb
  | cons a l ih =>
    obtain ⟨ha, hl⟩ := List.pairwise_cons.1 hl
    rw [lookup_cons_eq_ite]
    rcases List.mem_cons.1 hb with rfl | hb
    · rw [if_pos rfl]
    · rw [if_neg fun heq => String.lt_irrefl _ (heq ▸ ha b hb), ih hl hb]

theorem mem_bindings_iff {env : Env} : (name, v) ∈ env.bindings ↔ env.get? name = some v := by
  constructor
  · exact lookup_of_mem env.ascending
  · intro h
    obtain ⟨before, after, heq, _⟩ := List.lookup_eq_some_iff.1 h
    rw [heq]
    simp

theorem mem_names_iff {env : Env} : name ∈ env.names ↔ ∃ v, env.get? name = some v := by
  simp [names, ← mem_bindings_iff]

theorem names_byteLess (env : Env) : env.names.Pairwise ByteLess :=
  List.pairwise_map.2 (env.ascending.imp byteLess_of_lt)

theorem render_eq (env : Env) (sep : String) :
    env.render sep = sep.intercalate
      (env.names.map fun name => name ++ " = " ++ toString ((env.get? name).getD 0).toInt) := by
  rw [render, names, List.map_map]
  congr 1
  refine List.map_congr_left fun b hb => ?_
  have hget : env.get? b.1 = some b.2 := mem_bindings_iff.1 hb
  simp only [Function.comp_apply, hget, Option.getD_some]
  rfl

/-- What an environment tells, where the names were set to these values one after another. -/
structure Tells (env : Env) (sets : List (String × Int64)) : Prop where
  value : ∀ name v, env.get? name = some v ↔ LastSet sets name v
  absent : ∀ name, env.get? name = none ↔ ∀ s ∈ sets, s.1 ≠ name
  ascending : env.names.Pairwise ByteLess
  names : ∀ name, name ∈ env.names ↔ ∃ s ∈ sets, s.1 = name
  size : env.size = env.names.length
  printed : ∀ sep, env.render sep = sep.intercalate
    (env.names.map fun name => name ++ " = " ++ toString ((env.get? name).getD 0).toInt)

theorem tells_setAll (sets : List (String × Int64)) : (empty.setAll sets).Tells sets := by
  have hbound : ∀ name, (∃ v, (empty.setAll sets).get? name = some v) ↔
      ∃ s ∈ sets, s.1 = name := fun name => by
    rw [← exists_lastSet_iff]
    exact exists_congr fun v => get?_setAll_empty
  generalize henv : empty.setAll sets = env at hbound
  refine ⟨fun name v => ?_, fun name => ?_, env.names_byteLess, fun name => ?_, ?_,
    env.render_eq⟩
  · rw [← henv, get?_setAll_empty]
  · calc env.get? name = none
      _ ↔ ¬ ∃ v, env.get? name = some v := by cases env.get? name <;> simp
      _ ↔ ¬ ∃ s ∈ sets, s.1 = name := not_congr (hbound name)
      _ ↔ ∀ s ∈ sets, s.1 ≠ name := by simp only [not_exists, not_and, ne_eq]
  · rw [mem_names_iff, hbound]
  · exact (List.length_map _).symm

/-- An environment tells the last values that were set, and nothing of how they came to be. -/
theorem setAll_settled (sets : List (String × Int64)) :
    (empty.setAll sets).Tells sets ∧
      ∀ sets', (∀ name v, LastSet sets' name v ↔ LastSet sets name v) →
        empty.setAll sets' = empty.setAll sets := by
  refine ⟨tells_setAll sets, fun sets' hsets => ?_⟩
  refine ext_get? fun name => Option.ext fun v => ?_
  rw [get?_setAll_empty, get?_setAll_empty, hsets]

/-- One name is set twice, with the other in between. -/
theorem setAll_settled_twice :
    let sets := [("b", 1), ("a", -2), ("b", 3)]
    let sets' := [("b", 3), ("a", -2)]
    (∀ name v, LastSet sets' name v ↔ LastSet sets name v) ∧
      empty.setAll sets' = empty.setAll sets ∧
      (empty.setAll sets).render ", " = "a = -2, b = 3" := by
  intro sets sets'
  have hlast : ∀ name v, LastSet sets' name v ↔ LastSet sets name v := by
    intro name v
    simp only [sets, sets', lastSet_cons, not_lastSet_nil, List.forall_mem_cons]
    grind
  exact ⟨hlast, (setAll_settled sets).2 sets' hlast, by decide +kernel⟩

end Env
end BlockCalc
