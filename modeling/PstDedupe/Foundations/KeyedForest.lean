import Mathlib

/-!
# Forests filed by folded names

A tree has a name, and a key that its siblings do not have.
-/

namespace Foundations

open List

structure KeyedTree (N K ι α : Type) where
  name : N
  key : K
  children : List (KeyedTree N K ι α)
  items : List ι
  tag : α

namespace KeyedTree

variable {N K ι α σ : Type}

/-- Siblings have distinct keys, keys are folded names, and every name satisfies `P`. -/
inductive Keyed (fold : N → K) (P : N → Prop) : List (KeyedTree N K ι α) → Prop where
  | intro {forest : List (KeyedTree N K ι α)} (nodup : (forest.map key).Nodup)
      (key_eq : ∀ t ∈ forest, t.key = fold t.name) (name : ∀ t ∈ forest, P t.name)
      (children : ∀ t ∈ forest, Keyed fold P t.children) : Keyed fold P forest

/-- The item lies in the tree that the names lead to. -/
inductive Filed : List (KeyedTree N K ι α) → List N → ι → Prop where
  | here {forest : List (KeyedTree N K ι α)} {t : KeyedTree N K ι α} {x : ι} (ht : t ∈ forest)
      (hx : x ∈ t.items) : Filed forest [t.name] x
  | inside {forest : List (KeyedTree N K ι α)} {t : KeyedTree N K ι α} {names : List N} {x : ι}
      (ht : t ∈ forest) (h : Filed t.children names x) : Filed forest (t.name :: names) x

variable [DecidableEq K]

def updateFirst (k : K) (step : KeyedTree N K ι α → σ → KeyedTree N K ι α × σ) :
    List (KeyedTree N K ι α) → σ → List (KeyedTree N K ι α) × σ
  | [], s => ([], s)
  | t :: rest, s =>
    if t.key = k then
      let (t, s) := step t s
      (t :: rest, s)
    else
      let (rest, s) := updateFirst k step rest s
      (t :: rest, s)

def ensure (fold : N → K) (fresh : σ → α × σ) (n : N) (forest : List (KeyedTree N K ι α)) (s : σ) :
    List (KeyedTree N K ι α) × σ :=
  if forest.any fun t => t.key = fold n then (forest, s)
  else
    let (tag, s) := fresh s
    (forest ++ [⟨n, fold n, [], [], tag⟩], s)

def place (fold : N → K) (fresh : σ → α × σ) (x : ι) :
    List N → List (KeyedTree N K ι α) → σ → List (KeyedTree N K ι α) × σ
  | [], forest, s => (forest, s)
  | n :: rest, forest, s =>
    let (forest, s) := ensure fold fresh n forest s
    updateFirst (fold n) (fun t s =>
      match rest with
      | [] => ({ t with items := t.items ++ [x] }, s)
      | _ :: _ =>
        let (children, s) := place fold fresh x rest t.children s
        ({ t with children }, s)) forest s

def treeAt (fold : N → K) : List N → List (KeyedTree N K ι α) → Option (KeyedTree N K ι α)
  | [], _ => none
  | [n], forest => forest.find? fun t => t.key = fold n
  | n :: m :: rest, forest =>
    (forest.find? fun t => t.key = fold n).bind fun t => treeAt fold (m :: rest) t.children

section Invariant

variable {fold : N → K} {P Q : N → Prop} {forest : List (KeyedTree N K ι α)}

omit [DecidableEq K] in
theorem keyed_nil : Keyed fold P ([] : List (KeyedTree N K ι α)) :=
  .intro nodup_nil (by simp) (by simp) (by simp)

omit [DecidableEq K] in
theorem Keyed.of_filed (h : Keyed fold P forest) {names : List N} {x : ι}
    (hx : Filed forest names x) : ∀ n ∈ names, P n := by
  induction hx with
  | here ht _ =>
    cases h with
    | intro _ _ name _ =>
      intro n hn
      rw [List.mem_singleton.mp hn]
      exact name _ ht
  | inside ht _ ih =>
    cases h with
    | intro _ _ name children =>
      intro n hn
      rcases List.mem_cons.mp hn with rfl | hn
      · exact name _ ht
      · exact ih (children _ ht) n hn

omit [DecidableEq K] in
theorem eq_of_key_eq (hnodup : (forest.map key).Nodup) {t u : KeyedTree N K ι α} (ht : t ∈ forest)
    (hu : u ∈ forest) (hkey : t.key = u.key) : t = u :=
  inj_on_of_nodup_map hnodup ht hu hkey

omit [DecidableEq K] in
theorem Filed.unique (h : Keyed fold P forest) {names names' : List N} {x y : ι}
    (hx : Filed forest names x) (hy : Filed forest names' y)
    (hkeys : names.map fold = names'.map fold) : names = names' := by
  induction hx generalizing names' with
  | @here _ t _ ht _ =>
    cases h with
    | intro nodup key_eq _ _ =>
      cases hy with
      | @here _ u _ hu _ =>
        have hkey : t.key = u.key := by
          rw [key_eq t ht, key_eq u hu]
          exact (List.cons.inj hkeys).1
        rw [eq_of_key_eq nodup ht hu hkey]
      | inside _ h' =>
        cases h' <;> cases (List.cons.inj hkeys).2
  | @inside _ t names _ ht hnames ih =>
    cases h with
    | intro nodup key_eq _ children =>
      cases hy with
      | here _ _ => cases hnames <;> cases (List.cons.inj hkeys).2
      | @inside _ u names' _ hu h' =>
        have hkey : t.key = u.key := by
          rw [key_eq t ht, key_eq u hu]
          exact (List.cons.inj hkeys).1
        obtain rfl := eq_of_key_eq nodup ht hu hkey
        rw [ih (children t ht) h' (List.cons.inj hkeys).2]

end Invariant

section Place

variable {fold : N → K} {P : N → Prop} (fresh : σ → α × σ)

theorem keyed_ensure {n : N} {forest : List (KeyedTree N K ι α)} (h : Keyed fold P forest)
    (hn : P n) (s : σ) : Keyed fold P (ensure fold fresh n forest s).1 := by
  unfold ensure
  split
  · exact h
  rename_i hany
  have hnew : ∀ t ∈ forest, t.key ≠ fold n := by simpa using hany
  cases h with
  | intro nodup key_eq name children =>
    refine .intro ?_ ?_ ?_ ?_
    · rw [map_append, nodup_append]
      refine ⟨nodup, nodup_singleton _, ?_⟩
      intro a ha b hb
      obtain ⟨t, ht, rfl⟩ := List.mem_map.mp ha
      rw [show b = fold n by simpa using hb]
      exact hnew t ht
    all_goals
      intro t ht
      rcases List.mem_append.mp ht with ht | ht
    · exact key_eq t ht
    · rw [List.mem_singleton.mp ht]
    · exact name t ht
    · rw [List.mem_singleton.mp ht]
      exact hn
    · exact children t ht
    · rw [List.mem_singleton.mp ht]
      exact keyed_nil

theorem exists_mem_ensure (fold : N → K) (n : N) (forest : List (KeyedTree N K ι α)) (s : σ) :
    ∃ t ∈ (ensure fold fresh n forest s).1, t.key = fold n := by
  unfold ensure
  split
  · rename_i hany
    simpa using hany
  · exact ⟨_, mem_append_right _ (mem_singleton_self _), rfl⟩

variable {fresh} in
theorem filed_ensure {n : N} {forest : List (KeyedTree N K ι α)} {s : σ} {names : List N} {x : ι} :
    Filed (ensure fold fresh n forest s).1 names x ↔ Filed forest names x := by
  unfold ensure
  split
  · exact Iff.rfl
  · constructor
    · intro h
      cases h with
      | here ht hx =>
        rcases List.mem_append.mp ht with ht | ht
        · exact .here ht hx
        · rw [List.mem_singleton.mp ht] at hx
          cases hx
      | inside ht h =>
        rcases List.mem_append.mp ht with ht | ht
        · exact .inside ht h
        · rw [List.mem_singleton.mp ht] at h
          cases h with
          | here ht _ => cases ht
          | inside ht _ => cases ht
    · intro h
      cases h with
      | here ht hx => exact .here (mem_append_left _ ht) hx
      | inside ht h => exact .inside (mem_append_left _ ht) h

theorem mem_updateFirst {k : K} {step : KeyedTree N K ι α → σ → KeyedTree N K ι α × σ}
    {forest : List (KeyedTree N K ι α)} (hnodup : (forest.map key).Nodup) {t : KeyedTree N K ι α}
    (ht : t ∈ forest) (hkey : t.key = k) (s : σ) : ∃ s', ∀ u, u ∈ (updateFirst k step forest s).1 ↔
      u = (step t s').1 ∨ (u ∈ forest ∧ u.key ≠ k) := by
  induction forest generalizing s with
  | nil => cases ht
  | cons t₀ rest ih =>
    rw [map_cons, nodup_cons] at hnodup
    unfold updateFirst
    by_cases hk : t₀.key = k
    · have heq : t = t₀ := by
        rcases List.mem_cons.mp ht with h | h
        · exact h
        · exact absurd (List.mem_map.mpr ⟨t, h, hkey.trans hk.symm⟩) hnodup.1
      subst heq
      refine ⟨s, fun u => ?_⟩
      rw [if_pos hk]
      show u ∈ (step t s).1 :: rest ↔ _
      rw [mem_cons]
      constructor
      · rintro (h | h)
        · exact .inl h
        · refine .inr ⟨mem_cons_of_mem _ h, fun hu => hnodup.1 ?_⟩
          exact List.mem_map.mpr ⟨u, h, hu.trans hk.symm⟩
      · rintro (h | ⟨h, hu⟩)
        · exact .inl h
        · rcases List.mem_cons.mp h with rfl | h
          · exact absurd hk hu
          · exact .inr h
    · have hrest : t ∈ rest := by
        rcases List.mem_cons.mp ht with h | h
        · exact absurd (h ▸ hkey) hk
        · exact h
      obtain ⟨s', h⟩ := ih hnodup.2 hrest s
      refine ⟨s', fun u => ?_⟩
      rw [if_neg hk]
      show u ∈ t₀ :: (updateFirst k step rest s).1 ↔ _
      rw [mem_cons, h u, mem_cons]
      constructor
      · rintro (rfl | h | ⟨h, hu⟩)
        · exact .inr ⟨.inl rfl, hk⟩
        · exact .inl h
        · exact .inr ⟨.inr h, hu⟩
      · rintro (h | ⟨rfl | h, hu⟩)
        · exact .inr (.inl h)
        · exact .inl rfl
        · exact .inr (.inr ⟨h, hu⟩)

theorem map_key_updateFirst {k : K} {step : KeyedTree N K ι α → σ → KeyedTree N K ι α × σ}
    (hstep : ∀ t s, (step t s).1.key = t.key) (forest : List (KeyedTree N K ι α)) (s : σ) :
    (updateFirst k step forest s).1.map key = forest.map key := by
  induction forest generalizing s with
  | nil => rfl
  | cons t rest ih =>
    unfold updateFirst
    split
    · show (step t s).1.key :: _ = t.key :: _
      rw [hstep]
    · show t.key :: _ = t.key :: _
      rw [ih]

def placeStep (fold : N → K) (fresh : σ → α × σ) (x : ι) (rest : List N) (t : KeyedTree N K ι α)
    (s : σ) : KeyedTree N K ι α × σ :=
  match rest with
  | [] => ({ t with items := t.items ++ [x] }, s)
  | _ :: _ =>
    let (children, s) := place fold fresh x rest t.children s
    ({ t with children }, s)

theorem place_cons (x : ι) (n : N) (rest : List N) (forest : List (KeyedTree N K ι α)) (s : σ) :
    place fold fresh x (n :: rest) forest s
      = updateFirst (fold n) (placeStep fold fresh x rest) (ensure fold fresh n forest s).1
          (ensure fold fresh n forest s).2 := by
  rw [place]
  rfl

theorem placeStep_name (fold : N → K) (x : ι) (rest : List N) (t : KeyedTree N K ι α) (s : σ) :
    (placeStep fold fresh x rest t s).1.name = t.name := by
  cases rest <;> rfl

theorem placeStep_key (fold : N → K) (x : ι) (rest : List N) (t : KeyedTree N K ι α) (s : σ) :
    (placeStep fold fresh x rest t s).1.key = t.key := by
  cases rest <;> rfl

theorem mem_place {n : N} {forest : List (KeyedTree N K ι α)} (h : Keyed fold P forest) (hn : P n)
    (x : ι) (rest : List N) (s : σ) : ∃ t ∈ (ensure fold fresh n forest s).1, t.key = fold n ∧
      ∃ s', ∀ u, u ∈ (place fold fresh x (n :: rest) forest s).1 ↔ u = (placeStep fold fresh x rest t s').1 ∨
          (u ∈ (ensure fold fresh n forest s).1 ∧ u.key ≠ fold n) := by
  obtain ⟨t, ht, hkey⟩ := exists_mem_ensure fresh fold n forest s
  have hkeyed := keyed_ensure fresh h hn s
  cases hkeyed with
  | intro nodup _ _ _ =>
    rw [place_cons]
    exact ⟨t, ht, hkey, mem_updateFirst nodup ht hkey _⟩

theorem keyed_place {names : List N} {forest : List (KeyedTree N K ι α)} (h : Keyed fold P forest)
    (hnames : ∀ n ∈ names, P n) (x : ι) (s : σ) : Keyed fold P (place fold fresh x names forest s).1 := by
  induction names generalizing forest s with
  | nil => exact h
  | cons n rest ih =>
    have hn : P n := hnames n mem_cons_self
    obtain ⟨t, ht, _, s', hmem⟩ := mem_place fresh h hn x rest s
    have hensured := keyed_ensure fresh h hn s
    cases hensured with
    | intro nodup key_eq name children =>
      have hstep : Keyed fold P (placeStep fold fresh x rest t s').1.children := by
        cases rest with
        | nil => exact children t ht
        | cons m rest =>
          exact ih (children t ht) (fun k hk => hnames k (mem_cons_of_mem _ hk)) s'
      refine .intro ?_ ?_ ?_ ?_
      · rw [place_cons, map_key_updateFirst (placeStep_key fresh fold x rest)]
        exact nodup
      all_goals
        intro u hu
        rcases (hmem u).mp hu with rfl | ⟨hu, _⟩
      · rw [placeStep_key, placeStep_name]
        exact key_eq t ht
      · exact key_eq u hu
      · rw [placeStep_name]
        exact name t ht
      · exact name u hu
      · exact hstep
      · exact children u hu

theorem filed_place {names : List N} {forest : List (KeyedTree N K ι α)} (h : Keyed fold P forest)
    (hnames : ∀ n ∈ names, P n) {x y : ι} {s : σ} {path : List N}
    (hy : Filed (place fold fresh x names forest s).1 path y) :
    Filed forest path y ∨ (y = x ∧ path.map fold = names.map fold) := by
  induction names generalizing forest s path with
  | nil => exact .inl hy
  | cons n rest ih =>
    have hn : P n := hnames n mem_cons_self
    obtain ⟨t, ht, hkey, s', hmem⟩ := mem_place fresh h hn x rest s
    have hensured := keyed_ensure fresh h hn s
    cases hensured with
    | intro nodup key_eq name children =>
      have hfold : fold t.name = fold n := (key_eq t ht).symm.trans hkey
      cases hy with
      | here hu hx =>
        rcases (hmem _).mp hu with rfl | ⟨hu, _⟩
        · rw [placeStep_name]
          cases rest with
          | nil =>
            rcases List.mem_append.mp hx with hx | hx
            · exact .inl (filed_ensure.mp (.here ht hx))
            · exact .inr ⟨List.mem_singleton.mp hx, by rw [map_singleton, hfold]; rfl⟩
          | cons m rest => exact .inl (filed_ensure.mp (.here ht hx))
        · exact .inl (filed_ensure.mp (.here hu hx))
      | inside hu hx =>
        rcases (hmem _).mp hu with rfl | ⟨hu, _⟩
        · rw [placeStep_name]
          cases rest with
          | nil => exact .inl (filed_ensure.mp (.inside ht hx))
          | cons m rest =>
            rcases ih (children t ht) (fun k hk => hnames k (mem_cons_of_mem _ hk)) hx with
              hold | ⟨rfl, hpath⟩
            · exact .inl (filed_ensure.mp (.inside ht hold))
            · exact .inr ⟨rfl, by rw [map_cons, hpath, hfold]; rfl⟩
        · exact .inl (filed_ensure.mp (.inside hu hx))

theorem filed_place_of_filed {names : List N} {forest : List (KeyedTree N K ι α)} (h : Keyed fold P forest)
    (hnames : ∀ n ∈ names, P n) {x y : ι} (s : σ) {path : List N} (hy : Filed forest path y) :
    Filed (place fold fresh x names forest s).1 path y := by
  induction names generalizing forest s path with
  | nil => exact hy
  | cons n rest ih =>
    have hn : P n := hnames n mem_cons_self
    obtain ⟨t, ht, hkey, s', hmem⟩ := mem_place fresh h hn x rest s
    have hensured := keyed_ensure fresh h hn s
    cases hensured with
    | intro nodup key_eq name children =>
      have hstep := (hmem _).mpr (.inl rfl)
      cases filed_ensure.mpr hy with
      | @here _ u _ hu hx =>
        by_cases hukey : u.key = fold n
        · obtain rfl := eq_of_key_eq nodup hu ht (hukey.trans hkey.symm)
          rw [← placeStep_name fresh fold x rest u s']
          refine .here hstep ?_
          cases rest with
          | nil => exact mem_append_left _ hx
          | cons m rest => exact hx
        · exact .here ((hmem u).mpr (.inr ⟨hu, hukey⟩)) hx
      | @inside _ u _ _ hu hx =>
        by_cases hukey : u.key = fold n
        · obtain rfl := eq_of_key_eq nodup hu ht (hukey.trans hkey.symm)
          rw [← placeStep_name fresh fold x rest u s']
          refine .inside hstep ?_
          cases rest with
          | nil => exact hx
          | cons m rest =>
            exact ih (children u ht) (fun k hk => hnames k (mem_cons_of_mem _ hk)) s' hx
        · exact .inside ((hmem u).mpr (.inr ⟨hu, hukey⟩)) hx

theorem exists_filed_place {names : List N} (hne : names ≠ []) {forest : List (KeyedTree N K ι α)}
    (h : Keyed fold P forest) (hnames : ∀ n ∈ names, P n) (x : ι) (s : σ) :
    ∃ path, Filed (place fold fresh x names forest s).1 path x := by
  induction names generalizing forest s with
  | nil => exact absurd rfl hne
  | cons n rest ih =>
    have hn : P n := hnames n mem_cons_self
    obtain ⟨t, ht, _, s', hmem⟩ := mem_place fresh h hn x rest s
    have hstep := (hmem _).mpr (.inl rfl)
    have hensured := keyed_ensure fresh h hn s
    cases hensured with
    | intro nodup key_eq name children =>
      cases rest with
      | nil => exact ⟨_, .here hstep (mem_append_right _ (mem_singleton_self x))⟩
      | cons m rest =>
        obtain ⟨path, hpath⟩ :=
          ih (cons_ne_nil m rest) (children t ht) (fun k hk => hnames k (mem_cons_of_mem _ hk)) s'
        exact ⟨_, .inside hstep hpath⟩

theorem filed_place_singleton (fold : N → K) (n : N) (x : ι) (tag : α) (s : σ) :
    Filed (place fold fresh x [n] [⟨n, fold n, [], [], tag⟩] s).1 [n] x := by
  have hensure : ensure fold fresh n [(⟨n, fold n, [], [], tag⟩ : KeyedTree N K ι α)] s
      = ([⟨n, fold n, [], [], tag⟩], s) := if_pos (by simp)
  rw [place_cons, hensure]
  unfold updateFirst
  rw [if_pos rfl]
  exact .here mem_cons_self (mem_singleton_self x)

theorem filed_place_nil {names : List N} (hne : names ≠ []) (x : ι) (s : σ) :
    Filed (place fold fresh x names ([] : List (KeyedTree N K ι α)) s).1 names x := by
  induction names generalizing s with
  | nil => exact absurd rfl hne
  | cons n rest ih =>
    have hkeyed : Keyed fold (fun _ => True) ([] : List (KeyedTree N K ι α)) := keyed_nil
    obtain ⟨t, ht, _, s', hmem⟩ := mem_place fresh hkeyed trivial x rest s
    have hstep := (hmem _).mpr (.inl rfl)
    -- the tree is the new one
    have hnew : t = ⟨n, fold n, [], [], (fresh s).1⟩ := List.mem_singleton.mp ht
    subst hnew
    cases rest with
    | nil => exact .here hstep (mem_singleton_self x)
    | cons m rest => exact .inside hstep (ih (cons_ne_nil m rest) s')

end Place

end KeyedTree

end Foundations
