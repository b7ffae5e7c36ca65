import Mathlib

/-!
# Ordered fallback over a stateful source

Peers are asked in order until one gives a complete answer; when none does, the first usable answer
stands.
-/

namespace Foundations

open List Option Prod

variable {σ ι ε μ : Type*}

def askUntil (ask : σ → ι → σ × Except ε μ) (complete : ι → μ → Bool) : σ → List ι → σ × List (ι × Except ε μ)
  | s, [] => (s, [])
  | s, i :: is =>
    match ask s i with
    | (s', .ok m) =>
      if complete i m then (s', [(i, .ok m)])
      else
        let r := askUntil ask complete s' is
        (r.1, (i, .ok m) :: r.2)
    | (s', .error e) =>
      let r := askUntil ask complete s' is
      (r.1, (i, .error e) :: r.2)

example : (askUntil (fun s i => (s + 1, if i = 2 then Except.ok i else .error ()))
    (fun _ _ => true) 0 [1, 2, 3]).2 =
    [(1, .error ()), (2, .ok 2)] := by
  simp [askUntil]

def usable (log : List (ι × Except ε μ)) : List (ι × μ) :=
  log.filterMap fun p => match p.2 with
    | .ok m => some (p.1, m)
    | .error _ => none

def failures (log : List (ι × Except ε μ)) : List ι :=
  log.filterMap fun p => match p.2 with
    | .ok _ => none
    | .error _ => some p.1

def chosen (complete : ι → μ → Bool) (log : List (ι × Except ε μ)) : Option (ι × μ) :=
  ((usable log).find? fun p => complete p.1 p.2).or (usable log).head?

section Logs

variable {complete : ι → μ → Bool} {log : List (ι × Except ε μ)} {i : ι} {m : μ} {e : ε}

@[simp] theorem usable_nil : usable ([] : List (ι × Except ε μ)) = [] := rfl

@[simp] theorem usable_ok : usable ((i, .ok m) :: log) = (i, m) :: usable log := rfl

@[simp] theorem usable_error : usable ((i, .error e) :: log) = usable log := rfl

@[simp] theorem failures_nil : failures ([] : List (ι × Except ε μ)) = [] := rfl

@[simp] theorem failures_ok : failures ((i, .ok m) :: log) = failures log := rfl

@[simp] theorem failures_error : failures ((i, .error e) :: log) = i :: failures log := rfl

theorem mem_usable : (i, m) ∈ usable log ↔ (i, .ok m) ∈ log := by
  unfold usable
  rw [mem_filterMap]
  constructor
  · rintro ⟨⟨j, a⟩, hmem, h⟩
    cases a with
    | ok m' =>
      obtain ⟨rfl, rfl⟩ := Prod.mk.inj (Option.some.inj h)
      exact hmem
    | error e => cases h
  · intro h
    exact ⟨(i, .ok m), h, rfl⟩

theorem mem_failures : i ∈ failures log ↔ ∃ e, (i, .error e) ∈ log := by
  unfold failures
  rw [mem_filterMap]
  constructor
  · rintro ⟨⟨j, a⟩, hmem, h⟩
    cases a with
    | ok m' => cases h
    | error e =>
      obtain rfl := Option.some.inj h
      exact ⟨e, hmem⟩
  · rintro ⟨e, h⟩
    exact ⟨(i, .error e), h, rfl⟩

theorem mem_of_chosen (h : chosen complete log = some (i, m)) : (i, .ok m) ∈ log := by
  rw [← mem_usable]
  rcases Option.or_eq_some_iff.mp h with h | ⟨_, h⟩
  · exact mem_of_find?_eq_some h
  · exact mem_of_mem_head? h

theorem chosen_eq_none_iff : chosen complete log = none ↔ usable log = [] := by
  unfold chosen
  rw [or_eq_none_iff, head?_eq_none_iff]
  constructor
  · exact fun h => h.2
  · intro h
    rw [h]
    exact ⟨rfl, rfl⟩

theorem error_of_chosen_none (h : chosen complete log = none) {p : ι × Except ε μ} (hp : p ∈ log) :
    ∃ e, p.2 = .error e := by
  rw [chosen_eq_none_iff] at h
  obtain ⟨i, a⟩ := p
  cases a with
  | ok m =>
    have := mem_usable.mpr hp
    rw [h] at this
    cases this
  | error e => exact ⟨e, rfl⟩

theorem chosen_congr {complete' : ι → μ → Bool}
    (h : ∀ i m, (i, .ok m) ∈ log → complete i m = complete' i m) :
    chosen complete log = chosen complete' log := by
  unfold chosen
  rw [find?_congr fun p hp => h p.1 p.2 (mem_usable.mp hp)]

theorem not_ok_of_error (hnodup : (log.map fst).Nodup) (he : (i, .error e) ∈ log) : (i, .ok m) ∉ log := by
  intro hok
  have hinj := inj_on_of_nodup_map hnodup he hok rfl
  cases hinj

end Logs

section Asking

variable {ask : σ → ι → σ × Except ε μ} {complete : ι → μ → Bool} {s : σ} {peers : List ι}

theorem askUntil_prefix : (askUntil ask complete s peers).2.map fst <+: peers := by
  induction peers generalizing s with
  | nil => exact prefix_rfl
  | cons i is ih =>
    unfold askUntil
    split
    · rename_i s' m _
      split
      · exact (prefix_cons_inj i).mpr nil_prefix
      · exact (prefix_cons_inj i).mpr ih
    · exact (prefix_cons_inj i).mpr ih

theorem askUntil_total
    (h : ∀ i m, (i, .ok m) ∈ (askUntil ask complete s peers).2 → complete i m = false) :
    (askUntil ask complete s peers).2.map fst = peers := by
  induction peers generalizing s with
  | nil => rfl
  | cons i is ih =>
    unfold askUntil at h ⊢
    split at h
    · rename_i s' m _
      split at h
      · rename_i hc
        rw [h i m (List.mem_singleton.mpr rfl)] at hc
        cases hc
      · rename_i hc
        simp only [if_neg hc, map_cons]
        rw [ih fun j m' hj => h j m' (mem_cons_of_mem _ hj)]
    · simp only [map_cons]
      rw [ih fun j m' hj => h j m' (mem_cons_of_mem _ hj)]

theorem askUntil_nodup (h : peers.Nodup) : ((askUntil ask complete s peers).2.map fst).Nodup :=
  h.sublist askUntil_prefix.sublist

theorem mem_peers_of_asked {i : ι} {a : Except ε μ}
    (h : (i, a) ∈ (askUntil ask complete s peers).2) : i ∈ peers :=
  askUntil_prefix.subset (List.mem_map_of_mem (f := fst) h)

theorem exists_ask_of_asked {i : ι} {a : Except ε μ}
    (h : (i, a) ∈ (askUntil ask complete s peers).2) : ∃ s₁ s₂, ask s₁ i = (s₂, a) := by
  induction peers generalizing s with
  | nil => cases h
  | cons j is ih =>
    unfold askUntil at h
    split at h
    · rename_i s' m hask
      split at h
      · cases List.mem_singleton.mp h
        exact ⟨s, s', hask⟩
      · rcases List.mem_cons.mp h with heq | h
        · cases heq
          exact ⟨s, s', hask⟩
        · exact ih h
    · rename_i s' e hask
      rcases List.mem_cons.mp h with heq | h
      · cases heq
        exact ⟨s, s', hask⟩
      · exact ih h

end Asking

section Stateless

variable {f : ι → Except ε μ} {complete : ι → μ → Bool} {peers : List ι}

def answers (f : ι → Except ε μ) (i : ι) : Bool := (f i).isOk

def completes (f : ι → Except ε μ) (complete : ι → μ → Bool) (i : ι) : Bool :=
  match f i with
  | .ok m => complete i m
  | .error _ => false

def upTo (p : ι → Bool) (peers : List ι) : List ι := (peers.takeWhile fun i => !p i) ++ (peers.find? p).toList

theorem upTo_cons (p : ι → Bool) (i : ι) (is : List ι) :
    upTo p (i :: is) = if p i then [i] else i :: upTo p is := by
  unfold upTo
  rw [takeWhile_cons, find?_cons]
  cases p i <;> rfl

theorem upTo_congr {p q : ι → Bool} (h : ∀ i ∈ peers, p i = q i) : upTo p peers = upTo q peers := by
  induction peers with
  | nil => rfl
  | cons i is ih =>
    rw [upTo_cons, upTo_cons, h i mem_cons_self, ih fun j hj => h j (mem_cons_of_mem i hj)]

theorem mem_of_mem_upTo {p : ι → Bool} {i : ι} (h : i ∈ upTo p peers) : i ∈ peers := by
  rcases List.mem_append.mp h with h | h
  · exact (takeWhile_sublist _).subset h
  · exact mem_of_find?_eq_some (Option.mem_toList.mp h)

theorem askUntil_stateless {ask : σ → ι → σ × Except ε μ} (h : ∀ s, ∀ i ∈ peers, (ask s i).2 = f i) (s : σ) :
    (askUntil ask complete s peers).2 = (upTo (completes f complete) peers).map fun i => (i, f i) := by
  induction peers generalizing s with
  | nil => rfl
  | cons i is ih =>
    have hi := h s i mem_cons_self
    have his := fun s j hj => h s j (mem_cons_of_mem i hj)
    have hcompletes : completes f complete i = match (ask s i).2 with
        | .ok m => complete i m
        | .error _ => false := by
      unfold completes
      rw [hi]
    rw [upTo_cons, hcompletes]
    unfold askUntil
    cases hask : ask s i with
    | mk s' a =>
      rw [hask] at hi
      obtain rfl : a = f i := hi
      cases hf : f i with
      | error e =>
        simp only [Bool.false_eq_true, if_false, map_cons, hf]
        rw [ih his]
      | ok m =>
        dsimp only
        split
        · rw [map_singleton, hf]
        · rw [map_cons, hf, ih his]

theorem map_fst_usable (is : List ι) :
    (usable (is.map fun i => (i, f i))).map fst = is.filter (answers f) := by
  induction is with
  | nil => rfl
  | cons i is ih =>
    unfold answers at *
    cases hf : f i <;> simp [hf, ih, Except.isOk, Except.toBool]

theorem failures_map (is : List ι) :
    failures (is.map fun i => (i, f i)) = is.filter fun i => !answers f i := by
  induction is with
  | nil => rfl
  | cons i is ih =>
    unfold answers at *
    cases hf : f i <;> simp [hf, ih, Except.isOk, Except.toBool]

theorem find_usable_map (is : List ι) :
    ((usable (is.map fun i => (i, f i))).find? fun p => complete p.1 p.2).map fst = is.find?
    (completes f complete) := by
  induction is with
  | nil => rfl
  | cons i is ih =>
    unfold completes at *
    cases hf : f i with
    | error e => simpa [hf] using ih
    | ok m =>
      rw [map_cons, hf, usable_ok, find?_cons, find?_cons, hf]
      dsimp only
      cases complete i m with
      | false => exact ih
      | true => rfl

theorem find_upTo (p : ι → Bool) (peers : List ι) : (upTo p peers).find? p = peers.find? p := by
  induction peers with
  | nil => rfl
  | cons i is ih =>
    rw [upTo_cons, find?_cons]
    cases hp : p i with
    | true => rw [if_pos rfl, find?_cons, hp]
    | false => rw [if_neg Bool.false_ne_true, find?_cons, hp, ih]

theorem upTo_eq_self {p : ι → Bool} (h : peers.find? p = none) : upTo p peers = peers := by
  unfold upTo
  rw [h, toList_none, append_nil]
  refine List.takeWhile_eq_self_iff.mpr fun i hi => ?_
  rw [Bool.not_eq_true', ← Bool.not_eq_true]
  exact List.find?_eq_none.mp h i hi

end Stateless

end Foundations
