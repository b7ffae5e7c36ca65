import Mathlib

/-!
# Unescaped separators

When is `u ++ [c] ++ s` read back? Nothing stops `c` from occurring in `u`, so two different pairs
can give one text.
-/

namespace Foundations

open List Prod

variable {α : Type*} [DecidableEq α]

theorem sep_inj {c : α} {u v s t : List α} (hcount : u.count c = v.count c)
    (h : u ++ c :: s = v ++ c :: t) : u = v ∧ s = t := by
  rcases List.append_eq_append_iff.mp h with ⟨a, hv, ha⟩ | ⟨a, hu, ha⟩
  · cases a with
    | nil => simp_all
    | cons x a =>
      -- the overlap starts with a separator of its own, which `u` does not hold
      obtain rfl : c = x := by simp at ha; exact ha.1
      simp [hv] at hcount
  · cases a with
    | nil => simp_all
    | cons x a =>
      obtain rfl : c = x := by simp at ha; exact ha.1
      simp [hu] at hcount

theorem sep_inj_of_notMem {c : α} {u v s t : List α} (hu : c ∉ u) (hv : c ∉ v)
    (h : u ++ c :: s = v ++ c :: t) : u = v ∧ s = t := by
  apply sep_inj _ h
  rw [count_eq_zero_of_not_mem hu, count_eq_zero_of_not_mem hv]

theorem sep_inj_of_notMem_right {c : α} {u v s t : List α} (hs : c ∉ s) (ht : c ∉ t)
    (h : u ++ c :: s = v ++ c :: t) : u = v ∧ s = t := by
  apply sep_inj _ h
  have hcount := congrArg (count c) h
  simp only [count_append, count_cons_self, count_eq_zero_of_not_mem hs,
    count_eq_zero_of_not_mem ht] at hcount
  omega

def terminated (c : α) (ps : List (List α)) : List α := ps.flatMap fun p => p ++ [c]

omit [DecidableEq α] in
theorem terminated_cons (c : α) (p : List α) (ps : List (List α)) :
    terminated c (p :: ps) = p ++ c :: terminated c ps := by
  simp [terminated]

/-- **When terminated pieces are read back.** Induction on the pieces. -/
theorem terminated_inj_iff {c : α} {ps qs : List (List α)} (h : terminated c ps = terminated c qs) :
    ps = qs ↔ ps.map (count c) = qs.map (count c) := by
  constructor
  · rintro rfl
    rfl
  · intro hcount
    induction ps generalizing qs with
    | nil =>
      rw [map_nil, eq_comm, map_eq_nil_iff] at hcount
      exact hcount.symm
    | cons p ps ih =>
      cases qs with
      | nil => cases hcount
      | cons q qs =>
        rw [map_cons, map_cons, List.cons.injEq] at hcount
        rw [terminated_cons, terminated_cons] at h
        obtain ⟨rfl, hrest⟩ := sep_inj hcount.1 h
        rw [ih hrest hcount.2]

omit [DecidableEq α] in
theorem terminated_inj_of_width {c : α} {n : Nat} {ps qs : List (List α)} (hp : ∀ p ∈ ps, p.length = n)
    (hq : ∀ q ∈ qs, q.length = n) (h : terminated c ps = terminated c qs) : ps = qs := by
  induction ps generalizing qs with
  | nil =>
    cases qs with
    | nil => rfl
    | cons q qs => simp [terminated] at h
  | cons p ps ih =>
    cases qs with
    | nil => simp [terminated] at h
    | cons q qs =>
      rw [terminated_cons, terminated_cons] at h
      have hlength : p.length = q.length := by
        rw [hp p (mem_cons_self ..), hq q (mem_cons_self ..)]
      obtain ⟨rfl, hrest⟩ := append_inj h hlength
      rw [ih (fun p' hp' => hp p' (mem_cons_of_mem _ hp'))
        (fun q' hq' => hq q' (mem_cons_of_mem _ hq')) (List.cons.inj hrest).2]

omit [DecidableEq α] in
theorem length_terminated {c : α} {n : Nat} {ps : List (List α)} (hp : ∀ p ∈ ps, p.length = n) :
    (terminated c ps).length = ps.length * (n + 1) := by
  induction ps with
  | nil => simp [terminated]
  | cons p ps ih =>
    rw [terminated_cons, length_append, length_cons, length_cons,
      hp p (mem_cons_self ..), ih fun p' hp' => hp p' (mem_cons_of_mem _ hp'), Nat.succ_mul]
    omega

/-- A text that cannot overlap itself: its first letter does not occur again. -/
def IsLabel (m : List α) : Prop := ∃ c t, m = c :: t ∧ c ∉ t

def labelled : List α → List (List α × List α) → List α
  | f, [] => f
  | f, (m, g) :: rest => f ++ (m ++ labelled g rest)

/-- No label occurs in the field before it or in the field behind it. -/
def Unambiguous : List α → List (List α × List α) → Prop
  | _, [] => True
  | f, (m, g) :: rest => ¬ m <:+: f ∧ ¬ m <:+: g ∧ Unambiguous g rest

instance decidableUnambiguous : ∀ (f : List α) (ps : List (List α × List α)), Decidable (Unambiguous f ps)
  | _, [] => inferInstanceAs (Decidable True)
  | f, (m, g) :: rest =>
    have := decidableUnambiguous g rest
    inferInstanceAs (Decidable (¬ m <:+: f ∧ ¬ m <:+: g ∧ Unambiguous g rest))

omit [DecidableEq α] in
theorem IsLabel.places {m f g u v : List α} (hm : IsLabel m) (h : f ++ (m ++ u) = g ++ (m ++ v)) :
    (f = g ∧ u = v) ∨ (∃ e, g = f ++ (m ++ e) ∧ u = e ++ (m ++ v)) ∨
      (∃ e, f = g ++ (m ++ e) ∧ v = e ++ (m ++ u)) := by
  -- where `g` is longer, the label in front of `u` ends inside it
  have hlonger : ∀ {f g u v : List α}, f ++ (m ++ u) = g ++ (m ++ v) → ∀ a, g = f ++ a →
      a = [] ∨ ∃ e, a = m ++ e ∧ u = e ++ (m ++ v) := by
    intro f g u v h a hg
    rw [hg, append_assoc, append_cancel_left_eq] at h
    rcases List.append_eq_append_iff.mp h with ⟨e, ha, hu⟩ | ⟨b, hb, hv⟩
    · exact .inr ⟨e, ha, hu⟩
    · cases a with
      | nil => exact .inl rfl
      | cons x a =>
        cases b with
        | nil => exact .inr ⟨[], by rw [append_nil, hb, append_nil], by simpa using hv.symm⟩
        | cons y b =>
          obtain ⟨c, t, rfl, hc⟩ := hm
          rw [cons_append, List.cons.injEq] at hb
          rw [cons_append, cons_append, List.cons.injEq] at hv
          rw [hb.2, hv.1] at hc
          exact absurd (mem_append_right _ mem_cons_self) hc
  rcases List.append_eq_append_iff.mp h with ⟨a, hg, _⟩ | ⟨a, hf, _⟩
  · rcases hlonger h a hg with rfl | ⟨e, rfl, hu⟩
    · rw [append_nil] at hg
      subst hg
      exact .inl ⟨rfl, by simpa using h⟩
    · exact .inr (.inl ⟨e, hg, hu⟩)
  · rcases hlonger h.symm a hf with rfl | ⟨e, rfl, hv⟩
    · rw [append_nil] at hf
      subst hf
      exact .inl ⟨rfl, by simpa using h⟩
    · exact .inr (.inr ⟨e, hf, hv⟩)

omit [DecidableEq α] in
/-- Unambiguous fields are the only ones with their text. Induction on the labels: a first field
that ends elsewhere would put a label into one of its neighbours. -/
theorem labelled_inj {f g : List α} {ps qs : List (List α × List α)}
    (hlabels : ∀ p ∈ ps, IsLabel p.1) (hsame : qs.map fst = ps.map fst)
    (h : labelled g qs = labelled f ps) (hclear : Unambiguous f ps) : g = f ∧ qs = ps := by
  induction ps generalizing f g qs with
  | nil =>
    obtain rfl := List.map_eq_nil_iff.mp hsame
    exact ⟨h, rfl⟩
  | cons p ps ih =>
    obtain ⟨m, f'⟩ := p
    cases qs with
    | nil => cases hsame
    | cons q qs =>
      obtain ⟨m', g'⟩ := q
      rw [map_cons, map_cons, List.cons.injEq] at hsame
      obtain ⟨rfl : m' = m, hsame⟩ := hsame
      obtain ⟨hbefore, hbehind, hclear⟩ := hclear
      rw [forall_mem_cons] at hlabels
      rw [labelled, labelled] at h
      rcases hlabels.1.places h with ⟨rfl, hrest⟩ | ⟨e, hf, _⟩ | ⟨e, hg, hrest⟩
      · obtain ⟨rfl, rfl⟩ := ih hlabels.2 hsame hrest hclear
        exact ⟨rfl, rfl⟩
      · exact absurd ⟨g, e, by rw [hf, append_assoc]⟩ hbefore
      · -- the other text has the label again inside what is `f'` here
        have hagain : labelled (e ++ (m' ++ g')) qs = labelled f' ps := by
          rw [hrest]
          cases qs with
          | nil => rfl
          | cons q qs => simp [labelled]
        obtain ⟨rfl, rfl⟩ := ih hlabels.2 hsame hagain hclear
        exact absurd ⟨e, g', by rw [append_assoc]⟩ hbehind

omit [DecidableEq α] in
theorem exists_labelled_eq {f : List α} {ps : List (List α × List α)} (hlabels : ∀ p ∈ ps, IsLabel p.1)
    (h : ¬ Unambiguous f ps) : ∃ g qs, qs.map fst = ps.map fst ∧ labelled g qs = labelled f ps ∧
      ¬ (g = f ∧ qs = ps) := by
  induction ps generalizing f with
  | nil => exact absurd trivial h
  | cons p ps ih =>
    obtain ⟨m, f'⟩ := p
    rw [forall_mem_cons] at hlabels
    have hpos : 0 < m.length := by
      obtain ⟨c, t, hm, _⟩ := hlabels.1
      rw [show m = c :: t from hm]
      exact Nat.succ_pos _
    have hjoin : ∀ a b : List α, labelled (a ++ b) ps = a ++ labelled b ps := by
      intro a b
      cases ps with
      | nil => rfl
      | cons p ps => simp [labelled]
    by_cases hbefore : m <:+: f
    · obtain ⟨a, b, rfl⟩ := hbefore
      refine ⟨a, (m, b ++ (m ++ f')) :: ps, rfl, ?_, fun heq => ?_⟩
      · rw [labelled, labelled, hjoin, hjoin]
        simp only [append_assoc]
      · have hlen := congrArg length heq.1
        simp only [length_append] at hlen
        omega
    by_cases hbehind : m <:+: f'
    · obtain ⟨a, b, rfl⟩ := hbehind
      refine ⟨f ++ (m ++ a), (m, b) :: ps, rfl, ?_, fun heq => ?_⟩
      · rw [labelled, labelled, hjoin]
        simp only [append_assoc]
      · have hlen := congrArg length heq.1
        simp only [length_append] at hlen
        omega
    · have hrest : ¬ Unambiguous f' ps := fun hclear => h ⟨hbefore, hbehind, hclear⟩
      obtain ⟨g, qs, hsame, htext, hother⟩ := ih hlabels.2 hrest
      refine ⟨f, (m, g) :: qs, ?_, ?_, ?_⟩
      · rw [map_cons, map_cons, hsame]
      · rw [labelled, labelled, htext]
      · rintro ⟨_, heq⟩
        rw [List.cons.injEq, mk.injEq] at heq
        exact hother ⟨heq.1.2, heq.2⟩

end Foundations
