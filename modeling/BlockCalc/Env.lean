/-!
# BlockCalc.Env

Environments: the variables of a run and their values, in ascending order of the names. The order
is part of the type, so two environments that answer every question alike are equal.
-/

namespace BlockCalc

/-- Variables with their values, strictly ascending by name. -/
structure Env where
  bindings : List (String × Int64)
  ascending : bindings.Pairwise (fun a b => a.1 < b.1)
deriving DecidableEq

namespace Env

def empty : Env := ⟨[], .nil⟩

instance : Inhabited Env := ⟨empty⟩

/-- Puts a binding in its place, in the room of one with the same name. -/
def put (name : String) (v : Int64) : List (String × Int64) → List (String × Int64)
  | [] => [(name, v)]
  | b :: rest =>
    if name < b.1 then (name, v) :: b :: rest
    else if name = b.1 then (name, v) :: rest
    else b :: put name v rest

theorem mem_put {name : String} {v : Int64} {l : List (String × Int64)} {x : String × Int64}
    (h : x ∈ put name v l) : x = (name, v) ∨ x ∈ l := by
  induction l with
  | nil => simpa [put] using h
  | cons b rest ih =>
    simp only [put] at h
    split at h
    · simpa using h
    · split at h
      · rcases List.mem_cons.1 h with h | h
        · exact .inl h
        · exact .inr (List.mem_cons_of_mem _ h)
      · rcases List.mem_cons.1 h with h | h
        · exact .inr (h ▸ List.mem_cons_self)
        · exact (ih h).imp id (List.mem_cons_of_mem _)

theorem pairwise_put {name : String} {v : Int64} {l : List (String × Int64)}
    (h : l.Pairwise (fun a b => a.1 < b.1)) :
    (put name v l).Pairwise (fun a b => a.1 < b.1) := by
  induction l with
  | nil => simp [put]
  | cons b rest ih =>
    obtain ⟨hb, hrest⟩ := List.pairwise_cons.1 h
    simp only [put]
    split
    · rename_i hlt
      refine List.pairwise_cons.2 ⟨fun x hx => ?_, h⟩
      rcases List.mem_cons.1 hx with rfl | hx
      · exact hlt
      · exact String.lt_trans hlt (hb x hx)
    · split
      · rename_i heq
        refine List.pairwise_cons.2 ⟨fun x hx => ?_, hrest⟩
        simpa only [heq] using hb x hx
      · rename_i hnlt hne
        refine List.pairwise_cons.2 ⟨fun x hx => ?_, ih hrest⟩
        rcases mem_put hx with rfl | hx
        · exact (String.not_le.1 fun hle => hne (String.le_antisymm hle (String.not_lt.1 hnlt)))
        · exact hb x hx

/-- Binds `name` to `v`, replacing any earlier binding. -/
def set (env : Env) (name : String) (v : Int64) : Env :=
  ⟨put name v env.bindings, pairwise_put env.ascending⟩

def get? (env : Env) (name : String) : Option Int64 := env.bindings.lookup name

theorem lookup_cons_eq_ite (x : String) (b : String × Int64) (l : List (String × Int64)) :
    (b :: l).lookup x = if x = b.1 then some b.2 else l.lookup x := by
  obtain ⟨y, w⟩ := b
  by_cases h : x = y
  · simp [h]
  · simp [List.lookup_cons, h, beq_false_of_ne h]

theorem lookup_put (name x : String) (v : Int64) (l : List (String × Int64)) :
    (put name v l).lookup x = if x = name then some v else l.lookup x := by
  induction l with
  | nil => simp only [put, lookup_cons_eq_ite]
  | cons b rest ih =>
    simp only [put]
    split
    · rw [lookup_cons_eq_ite]
    · split
      · rename_i heq
        simp only [lookup_cons_eq_ite, ← heq]
        by_cases h : x = name <;> simp [h]
      · rename_i hne
        simp only [lookup_cons_eq_ite, ih]
        by_cases h : x = name <;> simp [h, hne]

theorem get?_empty (name : String) : empty.get? name = none := rfl

theorem get?_set (env : Env) (name x : String) (v : Int64) :
    (env.set name v).get? x = if x = name then some v else env.get? x :=
  lookup_put name x v env.bindings

theorem lookup_of_forall_lt {x : String} {l : List (String × Int64)} (h : ∀ b ∈ l, x < b.1) :
    l.lookup x = none := by
  refine List.lookup_eq_none_iff.2 fun b hb => bne_iff_ne.2 ?_
  rintro rfl
  exact String.lt_irrefl _ (h b hb)

/-- A name below the first of the names is unbound. -/
theorem le_of_lookup_cons {b : String × Int64} {l : List (String × Int64)} {x : String} {v : Int64}
    (hl : (b :: l).Pairwise (fun a b => a.1 < b.1)) (h : (b :: l).lookup x = some v) :
    b.1 ≤ x := by
  refine String.not_lt.1 fun hlt => ?_
  have hb := (List.pairwise_cons.1 hl).1
  have hnone : (b :: l).lookup x = none :=
    lookup_of_forall_lt (List.forall_mem_cons.2 ⟨hlt, fun c hc => String.lt_trans hlt (hb c hc)⟩)
  rw [h] at hnone
  cases hnone

theorem eq_of_lookup_eq {l m : List (String × Int64)} (hl : l.Pairwise (fun a b => a.1 < b.1))
    (hm : m.Pairwise (fun a b => a.1 < b.1)) (h : ∀ x, l.lookup x = m.lookup x) : l = m := by
  induction l generalizing m with
  | nil =>
    cases m with
    | nil => rfl
    | cons b m => simpa [lookup_cons_eq_ite] using h b.1
  | cons a l ih =>
    have ha : (a :: l).lookup a.1 = some a.2 := by simp [lookup_cons_eq_ite]
    cases m with
    | nil => rw [h a.1] at ha; cases ha
    | cons b m =>
      have hb : (b :: m).lookup b.1 = some b.2 := by simp [lookup_cons_eq_ite]
      have hname : a.1 = b.1 :=
        String.le_antisymm (le_of_lookup_cons hl ((h b.1).trans hb))
          (le_of_lookup_cons hm ((h a.1).symm.trans ha))
      have hvalue : a.2 = b.2 := by
        rw [h a.1, hname, hb] at ha
        exact (Option.some.inj ha).symm
      obtain ⟨hless, hl⟩ := List.pairwise_cons.1 hl
      obtain ⟨hless', hm⟩ := List.pairwise_cons.1 hm
      rw [Prod.ext hname hvalue, ih hl hm]
      intro x
      by_cases hx : x = a.1
      · rw [hx, lookup_of_forall_lt hless, hname, lookup_of_forall_lt hless']
      · have := h x
        rwa [lookup_cons_eq_ite, lookup_cons_eq_ite, if_neg hx, if_neg (hname ▸ hx)] at this

/-- Environments that answer every question alike are equal. -/
theorem ext_get? {env env' : Env} (h : ∀ x, env.get? x = env'.get? x) : env = env' := by
  obtain ⟨l, hl⟩ := env
  obtain ⟨m, hm⟩ := env'
  congr
  exact eq_of_lookup_eq hl hm h

def size (env : Env) : Nat := env.bindings.length

def names (env : Env) : List String := env.bindings.map (·.1)

/-- The bindings as `name = value`, in the order of the names. -/
def render (env : Env) (sep : String) : String :=
  sep.intercalate (env.bindings.map fun b => s!"{b.1} = {b.2.toInt}")

end Env
end BlockCalc
