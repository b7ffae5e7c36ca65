import PstDedupe.Foundations.SqlLike
import PstDedupe.MatterCore.FilterCompile
import PstDedupe.Rust.Lowercase

/-!
# What a `contains` condition finds (`matter-core/src/filter.rs`)

The needle is lowercased in the program, by Unicode, and the column in SQL, by ASCII.
-/

namespace MatterCore

open Rust Foundations List String

inductive SqlText where
  | column (table col : String)
  | empty
  | coalesce (e e' : SqlText)
  | lower (e : SqlText)
  deriving DecidableEq, Repr

def SqlText.sql : SqlText → String
  | .column table col => table ++ "." ++ col
  | .empty => "''"
  | .coalesce e e' => "COALESCE(" ++ e.sql ++ ", " ++ e'.sql ++ ")"
  | .lower e => "LOWER(" ++ e.sql ++ ")"

/-- Its value in a row, `none` for NULL: `LOWER` folds ASCII letters only. -/
def SqlText.eval (row : String → Option String) : SqlText → Option String
  | .column _ col => row col
  | .empty => some ""
  | .coalesce e e' => (e.eval row).or (e'.eval row)
  | .lower e => (e.eval row).map toAsciiLowercase

structure LikeCond where
  subject : SqlText
  esc : Char

def LikeCond.sql (c : LikeCond) : String :=
  c.subject.sql ++ " LIKE ? ESCAPE '" ++ String.singleton c.esc ++ "'"

/-- `LIKE` compares ASCII letters without their case. -/
def like (esc : Char) (pattern text : String) : Bool :=
  match SqlLike.tokens '%' '_' esc pattern.toList with
  | some ts => SqlLike.accepts Char.toLower ts text.toList
  | none => false

def LikeCond.holds (c : LikeCond) (row : String → Option String) (pattern : String) : Option Bool :=
  (c.subject.eval row).map (like c.esc pattern)

def containsCond (a : String) (col : TextColumn) : LikeCond :=
  ⟨.lower (.coalesce (.column a col.name) .empty), '\\'⟩

/-- A `contains` condition is compiled to `containsCond`, with its pattern bound. -/
theorem pushArm_columnContains [Target] (lib : FilterParsers) (a : String) (cond : FilterCondition)
    (matterId : String) (q : FilterSql) (col : TextColumn) :
    pushArm lib a cond matterId q (.columnContains col) =
      (requireStringValue cond col.name).map fun v =>
        (q.part (containsCond a col).sql).bind [.text (containsPattern v)] := by
  have hsql : (containsCond a col).sql =
      "LOWER(COALESCE(" ++ a ++ "." ++ col.name ++ ", '')) LIKE ? ESCAPE '\\'" := by
    simp [containsCond, LikeCond.sql, SqlText.sql, ← String.toList_inj]
  rw [hsql]
  show pushText cond col.name _ containsPattern [] q = _
  unfold pushText
  cases requireStringValue cond col.name <;> rfl

/-- What the program relies on of `str::to_lowercase`: it folds ASCII letters too, has no ASCII
capital left, changes nothing the second time, and makes no text shorter. -/
structure LowercaseLaws [Target] : Prop where
  ascii : ∀ s, Target.toLowercase (toAsciiLowercase s) = Target.toLowercase s
  folded : ∀ s, toAsciiLowercase (Target.toLowercase s) = Target.toLowercase s
  idem : ∀ s, Target.toLowercase (Target.toLowercase s) = Target.toLowercase s
  grows : ∀ s, s.toList.length ≤ (Target.toLowercase s).toList.length

/-- The needle is in the text, up to the case of ASCII letters. -/
def OccursAscii (v s : String) : Prop := (toAsciiLowercase v).toList <:+: (toAsciiLowercase s).toList

def OccursFolded [Target] (v s : String) : Prop :=
  ∃ w, w <:+: s.toList ∧ Target.toLowercase (ofList w) = Target.toLowercase v

instance (v s : String) : Decidable (OccursAscii v s) := inferInstanceAs (Decidable (_ <:+: _))

theorem toAsciiLowercase_toAsciiLowercase (s : String) :
    toAsciiLowercase (toAsciiLowercase s) = toAsciiLowercase s := by
  have hlower : ∀ c : Char, c.toLower.toLower = c.toLower := by
    intro c
    apply Char.toNat_inj.mp
    rw [toNat_toLower c.toLower]
    have hc := toNat_toLower c
    split at hc <;> split <;> omega
  unfold toAsciiLowercase
  rw [toList_ofList, List.map_map]
  congr 1
  exact map_congr_left fun c _ => hlower c

theorem tokens_containsPattern [Target] (v : String) : SqlLike.tokens '%' '_' '\\' (containsPattern v).toList =
      some (.any :: ((Target.toLowercase v).toList.map SqlLike.Token.lit ++ [.any])) := by
  have hchars : (containsPattern v).toList = '%' ::
      (SqlLike.escape '%' '_' '\\' (Target.toLowercase v).toList ++ ['%']) := by
    simp [containsPattern, escapeLikePattern, SqlLike.escape]
  rw [hchars, SqlLike.tokens_any, SqlLike.tokens_escape (by decide), SqlLike.tokens_any]
  rfl

theorem holds_containsCond_iff [Target] {a v s : String} {col : TextColumn}
    {row : String → Option String} (hs : row col.name = some s) :
    (containsCond a col).holds row (containsPattern v) = some true ↔ OccursAscii (Target.toLowercase v) s := by
  have heval : (containsCond a col).subject.eval row = some (toAsciiLowercase s) := by
    simp [containsCond, SqlText.eval, hs]
  unfold LikeCond.holds
  rw [heval, Option.map_some, Option.some.injEq]
  show like '\\' (containsPattern v) (toAsciiLowercase s) = true ↔ _
  unfold like
  rw [tokens_containsPattern]
  show SqlLike.accepts _ _ _ = true ↔ _
  rw [SqlLike.accepts_contains]
  have hagain : (toAsciiLowercase s).toList.map Char.toLower = (toAsciiLowercase s).toList := by
    simp [toAsciiLowercase]
  rw [hagain]
  unfold OccursAscii
  rw [show (toAsciiLowercase (Target.toLowercase v)).toList = (Target.toLowercase v).toList.map Char.toLower by
    simp [toAsciiLowercase]]

/-- The needle is found in the text if it occurs there up to ASCII case, and only if it occurs there
up to case. -/
def FindsLiterally [Target] (a : String) (col : TextColumn) (v s : String) : Prop :=
  ∀ row : String → Option String, row col.name = some s →
    (OccursAscii v s → (containsCond a col).holds row (containsPattern v) = some true) ∧
    ((containsCond a col).holds row (containsPattern v) = some true → OccursFolded v s)

section

variable [Target] {v s : String}

theorem occursFolded_of_occursAscii (laws : LowercaseLaws)
    (h : OccursAscii (Target.toLowercase v) s) : OccursFolded v s := by
  unfold OccursAscii at h
  rw [laws.folded] at h
  unfold toAsciiLowercase at h
  rw [toList_ofList, infix_map_iff] at h
  obtain ⟨w, hw, hfold⟩ := h
  refine ⟨w, hw, ?_⟩
  have hlower : toAsciiLowercase (ofList w) = Target.toLowercase v := by
    unfold toAsciiLowercase
    rw [toList_ofList, ← hfold, ofList_toList]
  rw [← laws.ascii, hlower, laws.idem]

theorem findsLiterally_iff (laws : LowercaseLaws) {a : String} {col : TextColumn} :
    FindsLiterally a col v s ↔ (OccursAscii v s → OccursAscii (Target.toLowercase v) s) := by
  constructor
  · intro h hv
    let row : String → Option String := fun _ => some s
    have hrow : row col.name = some s := rfl
    exact (holds_containsCond_iff hrow).mp ((h row hrow).1 hv)
  · intro h row hrow
    rw [holds_containsCond_iff hrow]
    exact ⟨h, occursFolded_of_occursAscii laws⟩

theorem eq_of_occursAscii_self (laws : LowercaseLaws) (h : OccursAscii (Target.toLowercase v) v) :
    Target.toLowercase v = toAsciiLowercase v := by
  unfold OccursAscii at h
  rw [laws.folded] at h
  have hlen : (toAsciiLowercase v).toList.length = v.toList.length := by simp [toAsciiLowercase]
  have hle := h.length_le
  have hgrows := laws.grows v
  exact String.toList_inj.mp (h.eq_of_length (by omega))

/-- **`contains` finds every occurrence of a needle exactly when lowercasing changes only its ASCII
letters**; on one text, exactly when the lowercased needle occurs wherever the needle does. -/
theorem contains_finds_iff (laws : LowercaseLaws) : (∀ (a : String) (col : TextColumn) (v : String),
      (∀ s, FindsLiterally a col v s) ↔ Target.toLowercase v = toAsciiLowercase v) ∧
    ∀ (a : String) (col : TextColumn) (v s : String),
      FindsLiterally a col v s ↔ (OccursAscii v s → OccursAscii (Target.toLowercase v) s) := by
  refine ⟨fun a col v => ?_, fun a col v s => findsLiterally_iff laws⟩
  simp only [findsLiterally_iff laws]
  constructor
  · intro h
    exact eq_of_occursAscii_self laws (h v (infix_refl _))
  · intro hlower s hv
    unfold OccursAscii at hv ⊢
    rwa [hlower, toAsciiLowercase_toAsciiLowercase]

end

/-- The subject `É` is not found by the needle `É`. -/
theorem contains_misses_capital :
    letI := latin1Target
    OccursAscii "É" "É" ∧
      (containsCond "i" .subject).holds (fun _ => some "É") (containsPattern "É") = some false ∧
      ¬ FindsLiterally "i" .subject "É" "É" := by
  let := latin1Target
  have hfalse : (containsCond "i" .subject).holds (fun _ => some "É") (containsPattern "É") = some false := by
    decide +kernel
  refine ⟨by decide +kernel, hfalse, fun h => ?_⟩
  have htrue := (h (fun _ => some "É") rfl).1 (by decide +kernel)
  rw [hfalse] at htrue
  cases htrue

/-- Wildcards, an escape character and a capital of ASCII are all found. -/
theorem contains_finds_ascii :
    letI := Target.unix
    FindsLiterally "i" .path "100%_A\\" "say 100%_a\\ twice" := by
  let := Target.unix
  have hagain := toAsciiLowercase_toAsciiLowercase
  have laws : LowercaseLaws := ⟨hagain, hagain, hagain, fun s => by
    show s.toList.length ≤ (toAsciiLowercase s).toList.length
    simp [toAsciiLowercase]⟩
  exact ((contains_finds_iff laws).1 "i" .path "100%_A\\").mpr rfl _

end MatterCore
