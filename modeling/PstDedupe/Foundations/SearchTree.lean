import Mathlib

/-!
# Index levels over records, and a search that descends them

A `LevelTree κ ν n` has `n` index levels over its records.
-/

namespace Foundations

open List Prod

variable {κ ν α β : Type} {n : Nat}

/-- Records, and `n` levels of index entries over them. -/
def LevelTree (κ ν : Type) : Nat → Type
  | 0 => List (κ × ν)
  | n + 1 => List (κ × LevelTree κ ν n)

def LevelTree.leaf (records : List (κ × ν)) : LevelTree κ ν 0 := records

def LevelTree.index (entries : List (κ × LevelTree κ ν n)) : LevelTree κ ν (n + 1) := entries

def LevelTree.empty : (n : Nat) → LevelTree κ ν n
  | 0 => leaf []
  | _ + 1 => index []

def LevelTree.entries (t : LevelTree κ ν (n + 1)) : List (κ × LevelTree κ ν n) := t

def LevelTree.records : {n : Nat} → LevelTree κ ν n → List (κ × ν)
  | 0, t => t
  | _ + 1, t => t.entries.flatMap fun e => e.2.records

@[simp] theorem LevelTree.records_leaf (records : List (κ × ν)) : (leaf records).records = records := rfl

@[simp] theorem LevelTree.records_index (entries : List (κ × LevelTree κ ν n)) :
    (index entries).records = entries.flatMap fun e => e.2.records := rfl

@[simp] theorem LevelTree.records_empty (n : Nat) : (LevelTree.empty n : LevelTree κ ν n).records = [] := by
  cases n <;> rfl

theorem mem_records {t : LevelTree κ ν (n + 1)} {r : κ × ν} :
    r ∈ t.records ↔ ∃ e ∈ t.entries, r ∈ e.2.records := mem_flatMap

section Descent

variable [DecidableEq κ] (le : κ → κ → Bool) (key : κ)

def recordOf (key : κ) (records : List (κ × ν)) : Option ν :=
  (records.find? fun r => r.1 = key).map snd

/-- The last of the leading entries that `p` accepts. -/
def pick (p : κ → Bool) (entries : List (κ × α)) : Option α :=
  (entries.takeWhile fun e => p e.1).getLast?.map snd

def LevelTree.search : {n : Nat} → LevelTree κ ν n → Option ν
  | 0, t => recordOf key t
  | _ + 1, t => (pick (fun k => le k key) t.entries).bind fun sub => sub.search

end Descent

theorem recordOf_cons [DecidableEq κ] (key : κ) (r : κ × ν) (rest : List (κ × ν)) :
    recordOf key (r :: rest) = if r.1 = key then some r.2 else recordOf key rest := by
  unfold recordOf
  split
  · next h => rw [find?_cons_of_pos (by simpa using h)]; rfl
  · next h => rw [find?_cons_of_neg (by simpa using h)]

@[simp] theorem LevelTree.search_empty [DecidableEq κ] (le : κ → κ → Bool) (key : κ) (n : Nat) :
    (LevelTree.empty n : LevelTree κ ν n).search le key = none := by
  cases n <;> rfl

theorem pick_cons (p : κ → Bool) (e : κ × α) (es : List (κ × α)) :
    pick p (e :: es) = if p e.1 then some ((pick p es).getD e.2) else none := by
  unfold pick
  rw [takeWhile_cons]
  split
  · rw [getLast?_cons, Option.map_some]
    cases (es.takeWhile fun e => p e.1).getLast? with
    | none => rfl
    | some f => rfl
  · rfl

theorem pick_rel {p : κ → Bool} {R : α → β → Prop} {es : List (κ × α)} {fs : List (κ × β)}
    (h : Forall₂ (fun e f => e.1 = f.1 ∧ R e.2 f.2) es fs) : Option.Rel R (pick p es) (pick p fs) := by
  induction h with
  | nil => exact .none
  | @cons e f es fs hef _ ih =>
    rw [pick_cons, pick_cons, hef.1]
    split
    · generalize pick p es = x at ih ⊢
      generalize pick p fs = y at ih ⊢
      cases ih with
      | none => exact .some hef.2
      | some hr => exact .some hr
    · exact .none

theorem pick_eq_some_iff {p : κ → Bool} {es : List (κ × α)} {a : α} :
    pick p es = some a ↔ ∃ before e after, es = before ++ e :: after ∧ e.2 = a ∧
      (∀ x ∈ before, p x.1 = true) ∧ p e.1 = true ∧ ∀ q ∈ after.head?, p q.1 = false := by
  unfold pick
  constructor
  · intro h
    obtain ⟨e, he, hea⟩ := Option.map_eq_some_iff.mp h
    obtain ⟨before, hbefore⟩ := List.getLast?_eq_some_iff.mp he
    have hall : ∀ x ∈ before ++ [e], p x.1 = true := fun x hx =>
      mem_takeWhile_imp (p := fun e : κ × α => p e.1) (hbefore ▸ hx)
    refine ⟨before, e, es.dropWhile fun e => p e.1, ?_, hea, fun x hx => hall x (by simp [hx]),
      hall e (by simp), ?_⟩
    · rw [← singleton_append, ← append_assoc, ← hbefore, takeWhile_append_dropWhile]
    · intro q hq
      have hne := head?_dropWhile_not (fun e : κ × α => p e.1) es
      rw [hq] at hne
      simpa using hne
  · rintro ⟨before, e, after, rfl, rfl, hbefore, he, hafter⟩
    have htake : (before ++ e :: after).takeWhile (fun e => p e.1) = before ++ [e] := by
      rw [takeWhile_append_of_pos hbefore, takeWhile_cons_of_pos (p := fun e : κ × α => p e.1) he]
      -- the entry after the picked one ends the run
      cases after with
      | nil => rfl
      | cons q rest => rw [takeWhile_cons_of_neg (by simp [hafter q rfl])]
    rw [htake, getLast?_concat]
    rfl

theorem split_unique {R : α → α → Prop} {l before before' after after' : List α} {e e' : α}
    (hl : l.Pairwise R) (h : l = before ++ e :: after) (h' : l = before' ++ e' :: after')
    (hr : ¬ R e e') (hr' : ¬ R e' e) : before = before' ∧ e = e' ∧ after = after' := by
  have key : ∀ {b b' a a' : List α} {x x' : α}, l = b ++ x :: a → l = b' ++ x' :: a' → ∀ c,
      b' = b ++ c → ¬ R x x' → b = b' ∧ x = x' ∧ a = a' := by
    intro b b' a a' x x' hb hb' c hc hx
    have heq : x :: a = c ++ x' :: a' := by
      rw [hb, hc, append_assoc] at hb'
      exact append_cancel_left hb'
    cases c with
    | nil =>
      obtain ⟨rfl, rfl⟩ := List.cons.inj heq
      exact ⟨by simpa using hc.symm, rfl, rfl⟩
    | cons y c =>
      obtain ⟨rfl, rfl⟩ := List.cons.inj heq
      -- then `x` stands before `x'`
      rw [hb, pairwise_append, pairwise_cons] at hl
      exact absurd (hl.2.1.1 x' (by simp)) hx
  rcases List.append_eq_append_iff.mp (h.symm.trans h') with ⟨c, hc, _⟩ | ⟨c, hc, _⟩
  · exact key h h' c hc hr
  · obtain ⟨hb, he, ha⟩ := key h' h c hc hr'
    exact ⟨hb.symm, he.symm, ha.symm⟩

section Order

variable {ω : Type} [LinearOrder ω] (rank : κ → ω)

/-- Records ascend; an entry's key is not above what the entry holds, and what it holds is below the
next keys. -/
def LevelTree.Ordered : {n : Nat} → LevelTree κ ν n → Prop
  | 0, t => List.Pairwise (fun r s => rank r.1 < rank s.1) t
  | _ + 1, t => (∀ e ∈ t.entries, e.2.Ordered ∧ ∀ r ∈ e.2.records, rank e.1 ≤ rank r.1) ∧
      t.entries.Pairwise fun e f => rank e.1 < rank f.1 ∧ ∀ r ∈ e.2.records, rank r.1 < rank f.1

@[simp] theorem LevelTree.ordered_leaf {records : List (κ × ν)} :
    (leaf records).Ordered rank ↔ records.Pairwise fun r s => rank r.1 < rank s.1 := Iff.rfl

@[simp] theorem LevelTree.ordered_index {entries : List (κ × LevelTree κ ν n)} : (index entries).Ordered rank ↔
    (∀ e ∈ entries, e.2.Ordered rank ∧ ∀ r ∈ e.2.records, rank e.1 ≤ rank r.1) ∧
      entries.Pairwise fun e f => rank e.1 < rank f.1 ∧ ∀ r ∈ e.2.records, rank r.1 < rank f.1 := Iff.rfl

/-- On each level, `le` puts the keys up to an entry's own at or below every record the entry holds,
and the key after it above. -/
def LevelTree.SeparatedBy (le : κ → κ → Bool) : {n : Nat} → LevelTree κ ν n → Prop
  | 0, _ => True
  | _ + 1, t => (∀ e ∈ t.entries, e.2.SeparatedBy le) ∧
      ∀ (before after : List (κ × LevelTree κ ν _)) e, t.entries = before ++ e :: after → ∀ r ∈ e.2.records,
        (∀ x ∈ before, le x.1 r.1 = true) ∧ le e.1 r.1 = true ∧ ∀ q ∈ after.head?, le q.1 r.1 = false

variable {rank}

theorem LevelTree.Ordered.pairwise {t : LevelTree κ ν n} (h : t.Ordered rank) :
    t.records.Pairwise fun r s => rank r.1 < rank s.1 := by
  induction n with
  | zero => exact h
  | succ n ih =>
    refine List.pairwise_flatMap.mpr ⟨fun e he => ih (h.1 e he).1, ?_⟩
    refine h.2.imp_of_mem fun {e f} _ hf hef r hr s hs => ?_
    exact (hef.2 r hr).trans_le ((h.1 f hf).2 s hs)

variable [DecidableEq κ] {le : κ → κ → Bool} {key : κ} {v : ν}

theorem mem_of_recordOf {records : List (κ × ν)} (h : recordOf key records = some v) : (key, v) ∈ records := by
  obtain ⟨r, hr, rfl⟩ := Option.map_eq_some_iff.mp h
  have hkey : r.1 = key := by simpa using find?_some hr
  rw [← hkey]
  exact mem_of_find?_eq_some hr

theorem recordOf_of_mem {records : List (κ × ν)} (h : records.Pairwise fun r s => rank r.1 < rank s.1)
    (hmem : (key, v) ∈ records) : recordOf key records = some v := by
  induction records with
  | nil => cases hmem
  | cons r rest ih =>
    rw [recordOf_cons]
    rcases List.mem_cons.mp hmem with rfl | hrest
    · exact if_pos rfl
    · have hlt := (List.pairwise_cons.mp h).1 _ hrest
      have hne : r.1 ≠ key := fun heq => absurd hlt (by rw [heq]; exact lt_irrefl _)
      rw [if_neg hne]
      exact ih (List.pairwise_cons.mp h).2 hrest

theorem LevelTree.mem_of_search {t : LevelTree κ ν n} (h : t.search le key = some v) :
    (key, v) ∈ t.records := by
  induction n with
  | zero => exact mem_of_recordOf h
  | succ n ih =>
    obtain ⟨sub, hsub, hfound⟩ := Option.bind_eq_some_iff.mp h
    obtain ⟨before, e, after, hsplit, rfl, _⟩ := pick_eq_some_iff.mp hsub
    exact mem_records.mpr ⟨e, by rw [hsplit]; simp, ih hfound⟩

theorem LevelTree.search_eq_recordOf_of {t : LevelTree κ ν n} (h : t.Ordered rank)
    (hfinds : ∀ r ∈ t.records, t.search le r.1 = some r.2) : t.search le key = recordOf key t.records := by
  cases hrec : recordOf key t.records with
  | some v => exact hfinds (key, v) (mem_of_recordOf hrec)
  | none =>
    cases hsearch : t.search le key with
    | none => rfl
    | some v =>
      rw [recordOf_of_mem h.pairwise (mem_of_search hsearch)] at hrec
      cases hrec

theorem LevelTree.search_finds_iff {t : LevelTree κ ν n} (h : t.Ordered rank) :
    (∀ r ∈ t.records, t.search le r.1 = some r.2) ↔ t.SeparatedBy le := by
  induction n with
  | zero => exact iff_of_true (fun r hr => recordOf_of_mem h.pairwise hr) trivial
  | succ n ih =>
    constructor
    · intro hfinds
      -- the entry that the search takes for a stored key is the one that stores it
      have hown : ∀ before e after, t.entries = before ++ e :: after → ∀ r ∈ e.2.records,
          ((∀ x ∈ before, le x.1 r.1 = true) ∧ le e.1 r.1 = true ∧ ∀ q ∈ after.head?,
            le q.1 r.1 = false) ∧ e.2.search le r.1 = some r.2 := by
        intro before e after hsplit r hr
        have he : e ∈ t.entries := by rw [hsplit]; simp
        obtain ⟨sub, hsub, hin⟩ := Option.bind_eq_some_iff.mp (hfinds r (mem_records.mpr ⟨e, he, hr⟩))
        obtain ⟨before', e', after', hsplit', rfl, hbefore, hle, hafter⟩ := pick_eq_some_iff.mp hsub
        have he' : e' ∈ t.entries := by rw [hsplit']; simp
        have hr' := mem_of_search hin
        obtain ⟨rfl, rfl, rfl⟩ := split_unique h.2 hsplit hsplit'
          (fun hlt => absurd (hlt.2 r hr) (not_lt.mpr ((h.1 e' he').2 _ hr')))
          (fun hlt => absurd (hlt.2 _ hr') (not_lt.mpr ((h.1 e he).2 r hr)))
        exact ⟨⟨hbefore, hle, hafter⟩, hin⟩
      refine ⟨fun e he => (ih (h.1 e he).1).mp fun r hr => ?_, fun before after e hsplit r hr =>
        (hown before e after hsplit r hr).1⟩
      obtain ⟨before, after, hsplit⟩ := append_of_mem he
      exact (hown before e after hsplit r hr).2
    · intro hsep r hr
      obtain ⟨e, he, hre⟩ := mem_records.mp hr
      obtain ⟨before, after, hsplit⟩ := append_of_mem he
      obtain ⟨hbefore, hle, hafter⟩ := hsep.2 before after e hsplit r hre
      refine Option.bind_eq_some_iff.mpr
        ⟨e.2, pick_eq_some_iff.mpr ⟨before, e, after, hsplit, rfl, hbefore, hle, hafter⟩, ?_⟩
      exact (ih (h.1 e he).1).mpr (hsep.1 e he) r hre

end Order

end Foundations
