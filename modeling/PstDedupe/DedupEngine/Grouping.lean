import PstDedupe.Rust.Std

/-!
# Grouping context and bind provenance (`dedup-engine/src/grouping.rs`)

The options of identity binding, the provenance of a bind, the honesty counters, and the
Message-ID compatibility table of a Tier-2 join.
-/

namespace DedupEngine

variable {block : Bool}

inductive DedupeScope where
  | global
  | perSource
  deriving DecidableEq, Repr

def DedupeScope.asStr : DedupeScope → String
  | .global => "global"
  | .perSource => "per-source"

inductive IdentityLevel where
  | off | v1 | body | bodyRecip | bodyRecipAttach
  deriving DecidableEq, Repr

namespace IdentityLevel

def asStr : IdentityLevel → String
  | off | v1 => "off"
  | body => "body"
  | bodyRecip => "body-recip"
  | bodyRecipAttach => "body-recip-attach"

def identityVersion : IdentityLevel → String
  | off | v1 => "v1"
  | body | bodyRecip | bodyRecipAttach => "v2"

def isStrong : IdentityLevel → Bool
  | off | v1 => false
  | body | bodyRecip | bodyRecipAttach => true

def includesBody (l : IdentityLevel) : Bool := l.isStrong

def includesRecipients : IdentityLevel → Bool
  | bodyRecip | bodyRecipAttach => true
  | off | v1 | body => false

def includesAttachContent : IdentityLevel → Bool
  | bodyRecipAttach => true
  | off | v1 | body | bodyRecip => false

end IdentityLevel

inductive Tier1Verify where
  | off | content | body
  deriving DecidableEq, Repr

inductive BoundBy where
  | seed | messageId | contentHash | strongContentHash
  deriving DecidableEq, Repr, Inhabited

namespace BoundBy

def asStr : BoundBy → String
  | seed => "seed"
  | messageId => "message_id"
  | contentHash => "content_hash"
  | strongContentHash => "content_hash_strong"

/-- The `tier` column of a `dup_of` row. -/
def tierCsv : BoundBy → Option String
  | seed => none
  | messageId => some "message_id"
  | contentHash => some "content_hash"
  | strongContentHash => some "content_hash_strong"

end BoundBy

structure GroupingContext where
  tier2Enabled : Bool := true
  scope : DedupeScope := .global
  tier1Authority : Bool := true
  requireReadableBody : Bool := true
  identity : IdentityLevel := .off
  tier1Verify : Tier1Verify := .off
  allowDegenerateTier2 : Bool := false
  allowCrcSuspectTier2 : Bool := false
  allowCrossMidTier2 : Bool := false
  tier1Backfill : Bool := false
  ignoreInlineAttachments : Bool := false
  deriving DecidableEq, Repr

namespace GroupingContext

def allowCrcSuspectTier2For (ctx : GroupingContext) (_pathKey : String) : Bool :=
  ctx.allowCrcSuspectTier2

def blockCrossMid (ctx : GroupingContext) : Bool := ctx.tier1Authority && !ctx.allowCrossMidTier2

def enforceReadableBody (ctx : GroupingContext) : Bool :=
  ctx.requireReadableBody && !ctx.allowDegenerateTier2

end GroupingContext

structure GroupingStats where
  tier2BlockedUnreadableBody : Nat := 0
  tier2BlockedDegenerate : Nat := 0
  tier2BlockedCrcSuspect : Nat := 0
  crossMidBlocked : Nat := 0
  crossMidBlockedGroups : Nat := 0
  crossMidBlockedMaxGroup : Nat := 0
  tier1DivergentBody : Nat := 0
  tier1DivergentMetadata : Nat := 0
  tier1DivergentRecipients : Nat := 0
  tier1BackfillCandidates : Nat := 0
  tier25Splits : Nat := 0
  tier25SplitsBccOnly : Nat := 0
  tier25SplitsRecipientsOnly : Nat := 0
  x500RecipientItems : Nat := 0
  tier2PreviewBytesOverBudget : Nat := 0
  deriving DecidableEq, Repr, Inhabited

/-- `mid_present`: the empty Message-ID counts as absent. -/
def midPresent (mid : Option String) : Option String := mid.filter fun m => m != ""

def midJoinCompatible (groupBoundMid itemMid : Option String) (blockCrossMid : Bool) : Bool × Option String :=
  match midPresent groupBoundMid, midPresent itemMid with
  | none, none => (true, none)
  | none, some m => (true, some m)
  | some gm, none => (true, some gm)
  | some gm, some im =>
    if gm = im then (true, some gm)
    else if !blockCrossMid then (true, some gm)
    else (false, none)

@[simp] theorem midPresent_midPresent (mid : Option String) :
    midPresent (midPresent mid) = midPresent mid := by
  simp [midPresent, Option.filter_filter]

theorem ne_empty_of_midPresent {mid : Option String} {m : String} (h : midPresent mid = some m) :
    mid = some m ∧ m ≠ "" := by
  simpa [midPresent, Option.filter_eq_some_iff] using h

theorem midJoinCompatible_fst {g m : Option String} : (midJoinCompatible g m block).1 = true ↔
      midPresent g = none ∨ midPresent m = none ∨ midPresent g = midPresent m ∨ block = false := by
  unfold midJoinCompatible
  cases midPresent g with
  | none => cases midPresent m <;> simp
  | some gm =>
    cases midPresent m with
    | none => simp
    | some im => by_cases heq : gm = im <;> cases block <;> simp [heq]

theorem midJoinCompatible_snd_of_some {g m : Option String} {b : String}
    (hg : midPresent g = some b) (hok : (midJoinCompatible g m block).1 = true) :
    (midJoinCompatible g m block).2 = some b := by
  unfold midJoinCompatible at hok ⊢
  rw [hg] at hok ⊢
  cases hm : midPresent m with
  | none => rfl
  | some im =>
    rw [hm] at hok
    by_cases heq : b = im
    · simp [heq]
    · cases block with
      | false => simp [heq]
      | true => simp [heq] at hok

theorem midJoinCompatible_snd_of_none {m : Option String} :
    (midJoinCompatible none m block).2 = midPresent m := by
  unfold midJoinCompatible
  cases midPresent m <;> rfl

/-- `recipient_has_x500`, i.e. `looks_like_x500_dn` of the reader crate. -/
def recipientHasX500 (s : String) : Bool :=
  let u := Rust.toAsciiUppercase s
  Rust.contains u "/O=" || Rust.contains u "/OU=" || Rust.contains u "/CN="

/-- `normalize_recipients`: trim, lowercase, split on `;`, sort the tokens, rejoin. -/
def normalizeRecipients [Rust.Target] (s : String) : String :=
  let parts := (Rust.split s ';').map fun p => Rust.Target.toLowercase (Rust.trim p)
  Rust.join ";" (Rust.sortStrings (parts.filter (· != "")))

structure CanonicalRecipient where
  displayName : Option String := none
  addressType : Option String := none
  emailAddress : Option String := none
  smtpAddress : Option String := none
  deriving DecidableEq, Repr

def nonemptyStr (s : Option String) : Option String := (s.map Rust.trim).filter (· != "")

/-- Something before the first `@`, and a dot behind it. -/
def looksLikeSmtp (addr : String) : Bool :=
  match addr.toList.dropWhile (· != '@') with
  | [] => false
  | _ :: after => addr.toList.head? != some '@' && !after.isEmpty && after.contains '.'

def isExAddress (typeUpper : Option String) (email : String) : Bool :=
  typeUpper == some "EX" || recipientHasX500 email

def CanonicalRecipient.identityKey (r : CanonicalRecipient) : Option String :=
  match nonemptyStr r.smtpAddress with
  | some smtp => some (Rust.toAsciiLowercase smtp)
  | none =>
    let typeUpper := (nonemptyStr r.addressType).map Rust.toAsciiUppercase
    let byEmail := (nonemptyStr r.emailAddress).bind fun email =>
      if typeUpper == some "SMTP" || (typeUpper.isNone && looksLikeSmtp email) then
        some (Rust.toAsciiLowercase email)
      else if isExAddress typeUpper email then some (Rust.toAsciiUppercase email)
      else none
    byEmail.or ((nonemptyStr r.displayName).map Rust.toAsciiLowercase)

def normalizeRecipientIdentityKeys (keys : List String) : String :=
  Rust.join ";" (Rust.sortStrings ((keys.map Rust.trim).filter (· != "")))

end DedupEngine
