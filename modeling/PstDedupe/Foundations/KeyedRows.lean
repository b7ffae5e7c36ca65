import PstDedupe.Foundations.SqlSelect

/-!
# Tables with a primary key

A table is the list of its rows; `rowAt` finds the row with a key.
-/

namespace Foundations

open List

section KeyedRows

variable {R K : Type*} [DecidableEq K] {key : R → K} {rows : List R} {r : R} {k : K}

def rowAt (key : R → K) (rows : List R) (k : K) : Option R := rows.find? fun r => key r = k

theorem mem_of_rowAt (h : rowAt key rows k = some r) : r ∈ rows := mem_of_find?_eq_some h

theorem key_of_rowAt (h : rowAt key rows k = some r) : key r = k :=
  of_decide_eq_true (find?_some (p := fun r => key r = k) h)

theorem rowAt_eq_none : rowAt key rows k = none ↔ k ∉ rows.map key := by
  unfold rowAt
  rw [find?_eq_none]
  simp only [mem_map, decide_eq_true_eq, not_exists, not_and]

theorem isSome_rowAt : (rowAt key rows k).isSome ↔ k ∈ rows.map key := by
  rw [← Option.ne_none_iff_isSome, Ne, rowAt_eq_none, not_not]

theorem rowAt_of_mem (hkeyed : (rows.map key).Nodup) (h : r ∈ rows) : rowAt key rows (key r) = some r := by
  obtain ⟨found, hfound⟩ := Option.isSome_iff_exists.mp (isSome_rowAt.mpr (mem_map_of_mem (f := key) h))
  rw [hfound, inj_on_of_nodup_map hkeyed (mem_of_rowAt hfound) h (key_of_rowAt hfound)]

theorem rowAt_map {f : R → R} (hf : ∀ r, key (f r) = key r) (rows : List R) (k : K) :
    rowAt key (rows.map f) k = (rowAt key rows k).map f := by
  unfold rowAt
  rw [find?_map]
  simp only [Function.comp_def, hf]

omit [DecidableEq K] in
theorem map_key_map {f : R → R} (hf : ∀ r, key (f r) = key r) (rows : List R) :
    (rows.map f).map key = rows.map key := by
  rw [map_map]
  exact map_congr_left fun r _ => hf r

theorem rowAt_concat (rows : List R) (r : R) (k : K) :
    rowAt key (rows ++ [r]) k = (rowAt key rows k).or (if key r = k then some r else none) := by
  unfold rowAt
  rw [find?_append]
  by_cases h : key r = k <;> simp [h]

end KeyedRows

/-!
# Rows that are rewritten in place

`rewriteAt ks g` rewrites the rows whose keys are in `ks`.
-/

section Rewrites

variable {R K : Type} [DecidableEq K] {key : R → K} {g : R → R} {ks ls : List K} {rows : List R} {r : R}

def rewriteAt (key : R → K) (ks : List K) (g : R → R) (rows : List R) : List R :=
  rows.map fun r => if key r ∈ ks then g r else r

@[simp] theorem rewriteAt_nil (g : R → R) (rows : List R) : rewriteAt key [] g rows = rows := by
  simp [rewriteAt]

omit [DecidableEq K] in
theorem key_ite (hg : ∀ r, key (g r) = key r) (r : R) (p : Prop) [Decidable p] :
    key (if p then g r else r) = key r := by
  split
  · exact hg r
  · rfl

theorem map_key_rewriteAt (hg : ∀ r, key (g r) = key r) (ks : List K) (rows : List R) :
    (rewriteAt key ks g rows).map key = rows.map key :=
  map_key_map (fun r => key_ite hg r _) rows

theorem rewriteAt_append (hg : ∀ r, key (g r) = key r) (hdisjoint : ∀ k ∈ ls, k ∉ ks) :
    rewriteAt key ls g (rewriteAt key ks g rows) = rewriteAt key (ks ++ ls) g rows := by
  unfold rewriteAt
  rw [map_map]
  refine map_congr_left fun r _ => ?_
  show (if key (if key r ∈ ks then g r else r) ∈ ls then _ else _) = _
  rw [key_ite hg]
  by_cases hl : key r ∈ ls
  · rw [if_pos hl, if_pos (List.mem_append.mpr (.inr hl))]
    exact congrArg g (if_neg (hdisjoint _ hl))
  · rw [if_neg hl]
    by_cases hk : key r ∈ ks
    · rw [if_pos hk, if_pos (List.mem_append.mpr (.inl hk))]
    · rw [if_neg hk, if_neg fun h => (List.mem_append.mp h).elim hk hl]

theorem rewriteAt_of_forall_notMem (h : ∀ r ∈ rows, key r ∉ ks) : rewriteAt key ks g rows = rows := by
  refine (map_congr_left fun r hr => ?_).trans (map_id rows)
  exact if_neg (h r hr)

theorem rowAt_rewriteAt (hg : ∀ r, key (g r) = key r) (ks : List K) (rows : List R) (k : K) :
    rowAt key (rewriteAt key ks g rows) k = (rowAt key rows k).map fun r => if k ∈ ks then g r else r := by
  unfold rewriteAt
  rw [rowAt_map fun r => key_ite hg r _]
  cases h : rowAt key rows k with
  | none => rfl
  | some r => rw [Option.map_some, Option.map_some, key_of_rowAt h]

theorem countP_concat_key (hkeyed : (rows.map key).Nodup) (hr : r ∈ rows) (hnew : key r ∉ ks)
    (q : R → Bool) : rows.countP (fun x => decide (key x ∈ ks ++ [key r]) && q x)
      = rows.countP (fun x => decide (key x ∈ ks) && q x) + if q r then 1 else 0 := by
  induction rows with
  | nil => cases hr
  | cons x rest ih =>
    rw [map_cons, nodup_cons] at hkeyed
    rw [countP_cons, countP_cons]
    rcases List.mem_cons.mp hr with rfl | hr
    · -- no other row has the key
      have hrest : rest.countP (fun x => decide (key x ∈ ks ++ [key r]) && q x)
          = rest.countP fun x => decide (key x ∈ ks) && q x := by
        refine countP_congr fun x hx => ?_
        have hne : key x ≠ key r := fun h => hkeyed.1 (h ▸ mem_map_of_mem hx)
        simp only [mem_append, mem_singleton, hne, or_false]
      rw [hrest]
      simp [hnew]
    · have hne : key x ≠ key r := fun h => hkeyed.1 (h ▸ mem_map_of_mem hr)
      rw [ih hkeyed.2 hr]
      simp only [mem_append, mem_singleton, hne, or_false]
      omega

theorem foldl_write_eq {W : Type} (writeKey : W → K) (put : W → R → R) (hput : ∀ w r, key (put w r) = key r)
    {ws : List W} (hnodup : (ws.map writeKey).Nodup) (hg : ∀ w ∈ ws, writeKey w = key r → put w r = g r) :
    ws.foldl (fun r w => if key r = writeKey w then put w r else r) r
      = if key r ∈ ws.map writeKey then g r else r := by
  -- once a row is written its key does not come again
  have hskip : ∀ (ws : List W) (r : R), key r ∉ ws.map writeKey →
      ws.foldl (fun r w => if key r = writeKey w then put w r else r) r = r := by
    intro ws
    induction ws with
    | nil => exact fun _ _ => rfl
    | cons w ws ih =>
      intro r h
      rw [map_cons, mem_cons, not_or] at h
      rw [foldl_cons, if_neg h.1]
      exact ih r h.2
  induction ws with
  | nil => rfl
  | cons w ws ih =>
    rw [map_cons, nodup_cons] at hnodup
    rw [foldl_cons, map_cons]
    by_cases hk : key r = writeKey w
    · rw [if_pos hk, if_pos (hk ▸ mem_cons_self), hg w mem_cons_self hk.symm]
      refine hskip ws _ ?_
      rw [← hg w mem_cons_self hk.symm, hput, hk]
      exact hnodup.1
    · rw [if_neg hk, ih hnodup.2 fun w' hw' => hg w' (mem_cons_of_mem _ hw')]
      simp only [mem_cons, hk, false_or]

theorem foldl_assign_cases {V : Type} (us : List (K × V)) (k : K) (v : V) :
    (∃ u ∈ us, u.1 = k ∧ us.foldl (fun v u => if k = u.1 then u.2 else v) v = u.2) ∨
      (∀ u ∈ us, u.1 ≠ k) ∧ us.foldl (fun v u => if k = u.1 then u.2 else v) v = v := by
  induction us using reverseRecOn with
  | nil => exact .inr ⟨fun _ h => absurd h not_mem_nil, rfl⟩
  | append_singleton us u ih =>
    rw [foldl_append, foldl_cons, foldl_nil]
    by_cases hk : k = u.1
    · exact .inl ⟨u, mem_append_right _ mem_cons_self, hk.symm, if_pos hk⟩
    · rw [if_neg hk]
      rcases ih with ⟨w, hw, hwk, heq⟩ | ⟨hnone, heq⟩
      · exact .inl ⟨w, mem_append_left _ hw, hwk, heq⟩
      · refine .inr ⟨fun w hw => ?_, heq⟩
        rcases List.mem_append.mp hw with hw | hw
        · exact hnone w hw
        · rw [List.mem_singleton.mp hw]
          exact Ne.symm hk

end Rewrites

/-- Among the first of a longer selection are only first ones of a shorter. Induction on the
list. -/
theorem mem_take_filter {α : Type} {p q : α → Bool} {l : List α}
    (hpq : ∀ x ∈ l, p x = true → q x = true) {j : Nat} {x : α} (h : x ∈ (l.filter q).take j)
    (hx : p x = true) : x ∈ (l.filter p).take j := by
  induction l generalizing j with
  | nil => exact h
  | cons y l ih =>
    have hrest : ∀ z ∈ l, p z = true → q z = true := fun z hz => hpq z (mem_cons_of_mem y hz)
    cases j with
    | zero => exact absurd h not_mem_nil
    | succ j =>
      by_cases hq : q y = true
      · rw [filter_cons_of_pos hq, take_succ_cons] at h
        by_cases hp : p y = true
        · rw [filter_cons_of_pos hp, take_succ_cons]
          rcases List.mem_cons.mp h with rfl | h
          · exact mem_cons_self
          · exact mem_cons_of_mem y (ih hrest h)
        · rw [filter_cons_of_neg hp]
          rcases List.mem_cons.mp h with rfl | h
          · exact absurd hx hp
          · exact (take_sublist_take_left (Nat.le_succ j)).subset (ih hrest h)
      · rw [filter_cons_of_neg hq] at h
        rw [filter_cons_of_neg fun hp => hq (hpq y mem_cons_self hp)]
        exact ih hrest h

section Queries

variable {R : Type} {terms : List (R → R → Ordering)} {h : R → R}

theorem orderBy_map (hterms : ∀ a b, byTerms terms (h a) (h b) = byTerms terms a b)
    (rows : List R) : orderBy terms (rows.map h) = (orderBy terms rows).map h := by
  have hsame : byTerms terms = fun a b => byTerms terms (h a) (h b) :=
    funext fun a => funext fun b => (hterms a b).symm
  unfold orderBy
  rw [← Rust.map_sortBy (byTerms terms) h, ← hsame]

theorem select_map {p : R → Bool} (hp : ∀ r, p (h r) = p r)
    (hterms : ∀ a b, byTerms terms (h a) (h b) = byTerms terms a b) (rows : List R) :
    orderBy terms ((rows.map h).filter p) = (orderBy terms (rows.filter p)).map h := by
  rw [filter_map, orderBy_map hterms]
  exact congrArg (fun q => (orderBy terms (rows.filter q)).map h) (funext hp)

theorem orderBy_column {S : Type} (column : R → S) (terms : List (S → S → Ordering)) (rows : List R) :
    (orderBy (terms.map fun term a b => term (column a) (column b)) rows).map column
      = orderBy terms (rows.map column) := by
  have hterms : ∀ a b, byTerms (terms.map fun term a b => term (column a) (column b)) a b
      = byTerms terms (column a) (column b) := fun a b => by
    unfold byTerms
    rw [foldr_map]
  unfold orderBy
  rw [← Rust.map_sortBy (byTerms terms) column]
  exact congrArg (fun cmp => (Rust.sortBy cmp rows).map column) (funext fun a => funext (hterms a))

end Queries

end Foundations
