import PstDedupe.PstWriter.FolderKeys

/-!
# Where the planner files messages, and the key QC expects

The route of a message is the path of names it is filed under: the prefix in force and its sanitized
segments, or the residual folder.
-/

namespace PstWriter

open Rust Foundations KeyedTree List Option

variable [UnicodeTables] [Target]

namespace IncrementalFolderPlan

variable {opts : WritePstOpts} {multi : Bool}

def route (plan : IncrementalFolderPlan) (msg : MessageSource) : List String :=
  match pathOutcome msg with
  | .segments segs _ => (plan.sourcePrefix msg).toList ++ segs
  | .residual _ => [plan.residualName]

def prefixedKey (plan : IncrementalFolderPlan) (msg : MessageSource) : String :=
  let key := folderPathQcExpectedKey (msg.sourceFolderPath.getD "")
  match pathOutcome msg with
  | .segments _ _ => join "/" ((plan.sourcePrefix msg).toList.map toAsciiLowercase ++ [key])
  | .residual _ => key

def routedBy (opts : WritePstOpts) (plan : IncrementalFolderPlan) (nextNidIndex msgIndex : Nat) :
    List MessageSource → List (IncrementalFolderPlan × MessageSource)
  | [] => []
  | msg :: rest =>
    let assigned := plan.assignMessage nextNidIndex msg opts msgIndex
    (plan.observeSource msg, msg) :: routedBy opts assigned.1 assigned.2 (msgIndex + 1) rest

def routes (opts : WritePstOpts) (plan : IncrementalFolderPlan) (nextNidIndex msgIndex : Nat)
    (messages : List MessageSource) : List (List String) :=
  (routedBy opts plan nextNidIndex msgIndex messages).map fun r => r.1.route r.2

def prefixedKeys (opts : WritePstOpts) (plan : IncrementalFolderPlan) (nextNidIndex msgIndex : Nat)
    (messages : List MessageSource) : List String :=
  (routedBy opts plan nextNidIndex msgIndex messages).map fun r => r.1.prefixedKey r.2

/-! ## One message -/

section Step

variable {opts : WritePstOpts} {multi : Bool} (hlayout : opts.folderLayout = .preservePaths multi)
  (plan : IncrementalFolderPlan) (nextNidIndex : Nat) (msg : MessageSource) (msgIndex : Nat)

theorem observeSource_roots : (plan.observeSource msg).roots = plan.roots := by
  unfold observeSource
  split
  · split <;> rfl
  · rfl

theorem observeSource_residualName : (plan.observeSource msg).residualName = plan.residualName := by
  unfold observeSource
  split
  · split <;> rfl
  · rfl

include hlayout in
theorem assignMessage_preservePaths :
    (∃ s, (plan.assignMessage nextNidIndex msg opts msgIndex).1.roots
      = (place caseFoldKey freshFolder msgIndex ((plan.observeSource msg).route msg) plan.roots s).1) ∧
    (plan.assignMessage nextNidIndex msg opts msgIndex).1.prefixMap = (plan.observeSource msg).prefixMap ∧
    (plan.assignMessage nextNidIndex msg opts msgIndex).1.residualName = plan.residualName := by
  rw [← observeSource_roots plan msg, ← observeSource_residualName plan msg]
  unfold assignMessage route
  rw [hlayout]
  dsimp only
  cases pathOutcome msg with
  | segments segs degraded => exact ⟨⟨_, rfl⟩, rfl, rfl⟩
  | residual degraded => exact ⟨⟨_, rfl⟩, rfl, rfl⟩

theorem assignMessage_flat {name : String} (hflat : opts.folderLayout = .flat name) :
    ∃ s, (plan.assignMessage nextNidIndex msg opts msgIndex).1.roots
      = (place caseFoldKey freshFolder msgIndex [plan.residualName] plan.roots s).1 := by
  rw [← observeSource_roots plan msg, ← observeSource_residualName plan msg]
  unfold assignMessage
  rw [hflat]
  exact ⟨_, rfl⟩

omit [UnicodeTables] [Target] in
theorem route_ne_nil : plan.route msg ≠ [] := by
  unfold route
  split
  · rename_i segs _ hout
    unfold pathOutcome at hout
    split at hout
    · cases hout
    · exact append_ne_nil_of_right_ne_nil _ (segments_of_parseFolderPath hout).1
  · exact cons_ne_nil _ _

def PrefixForms (plan : IncrementalFolderPlan) : Prop :=
  ∀ p label, plan.prefixMap.get p = some label → SegmentForm label

variable {plan} in
theorem PrefixForms.observeSource (h : plan.PrefixForms) (msg : MessageSource) :
    (plan.observeSource msg).PrefixForms := by
  unfold IncrementalFolderPlan.observeSource
  split
  · split
    · exact h
    · intro p label hlabel
      dsimp only at hlabel
      split at hlabel
      · exact segmentForm_uniqueSourcePrefixes hlabel
      · exact h p label hlabel
  · exact h

omit [UnicodeTables] [Target] in
variable {plan} in
theorem segmentForm_route (h : plan.PrefixForms) (hresidual : SegmentForm plan.residualName)
    {s : String} (hs : s ∈ plan.route msg) : SegmentForm s := by
  unfold route at hs
  split at hs
  · rename_i segs _ hout
    rcases List.mem_append.mp hs with hs | hs
    · obtain ⟨p, _, hp⟩ := Option.bind_eq_some_iff.mp (Option.mem_toList.mp hs)
      exact h p s hp
    · unfold pathOutcome at hout
      split at hout
      · cases hout
      · exact (segments_of_parseFolderPath hout).2 s hs
  · rw [List.mem_singleton.mp hs]
    exact hresidual

omit [UnicodeTables] [Target] in
variable {plan} in
theorem prefixedKey_eq_join_route (hresidual : plan.residualName = "Unique Mail") :
    plan.prefixedKey msg = join "/" ((plan.route msg).map toAsciiLowercase) := by
  unfold prefixedKey route
  dsimp only
  cases hout : pathOutcome msg with
  | segments segs degraded =>
    dsimp only
    unfold pathOutcome at hout
    cases hpath : msg.sourceFolderPath with
    | none =>
      rw [hpath] at hout
      cases hout
    | some p =>
      rw [hpath] at hout
      dsimp only at hout
      rw [getD_some, folderPathQcExpectedKey, hout, map_append]
      dsimp only
      cases plan.sourcePrefix msg with
      | none => rfl
      | some label =>
        -- the prefix and the segments, joined in two steps or in one
        show join "/" [toAsciiLowercase label, join "/" (segs.map toAsciiLowercase)]
          = join "/" (toAsciiLowercase label :: segs.map toAsciiLowercase)
        cases segs with
        | nil => exact absurd rfl (segments_of_parseFolderPath hout).1
        | cons s rest => rfl
  | residual degraded =>
    dsimp only
    rw [hresidual]
    have hkey : folderPathQcExpectedKey (msg.sourceFolderPath.getD "") = "unique mail" := by
      unfold pathOutcome at hout
      cases hpath : msg.sourceFolderPath with
      | none => decide +kernel
      | some p =>
        rw [hpath] at hout
        dsimp only at hout
        rw [getD_some, folderPathQcExpectedKey, hout]
    rw [hkey]
    decide +kernel

end Step

/-- What filing a list of routes makes of a forest: the message of each route is filed under a path
with the keys of the route, and nothing else is new. -/
structure FilesRoutes (P : String → Prop) (routes : List (List String)) (msgIndex : Nat)
    (before after : List PlannedFolder) : Prop where
  keyed : Keyed caseFoldKey P after
  kept : ∀ names x, Filed before names x → Filed after names x
  filed : ∀ k < routes.length, ∃ names, Filed after names (msgIndex + k)
  routed : ∀ names x, Filed after names x → Filed before names x ∨
    ∃ k r, x = msgIndex + k ∧ routes[k]? = some r ∧ names.map caseFoldKey = r.map caseFoldKey

section Run

variable {P : String → Prop} {opts : WritePstOpts} {multi : Bool}

theorem assignAll_files (hlayout : opts.folderLayout = .preservePaths multi)
    (plan : IncrementalFolderPlan) (nextNidIndex msgIndex : Nat) (messages : List MessageSource)
    (hkeyed : Keyed caseFoldKey P plan.roots)
    (hnames : ∀ r ∈ routes opts plan nextNidIndex msgIndex messages, ∀ n ∈ r, P n) :
    FilesRoutes P (routes opts plan nextNidIndex msgIndex messages) msgIndex plan.roots
      (assignAll opts plan nextNidIndex msgIndex messages).roots := by
  induction messages generalizing plan nextNidIndex msgIndex with
  | nil =>
    refine ⟨hkeyed, fun _ _ h => h, ?_, fun _ _ h => .inl h⟩
    intro k hk
    exact absurd hk (Nat.not_lt_zero k)
  | cons msg rest ih =>
    obtain ⟨⟨s, hroots⟩, _, _⟩ := assignMessage_preservePaths hlayout plan nextNidIndex msg msgIndex
    have hfirst := hnames _ mem_cons_self
    have hne := route_ne_nil (plan.observeSource msg) msg
    have hplaced := keyed_place freshFolder hkeyed hfirst msgIndex s
    have hrest := ih (plan.assignMessage nextNidIndex msg opts msgIndex).1
      (plan.assignMessage nextNidIndex msg opts msgIndex).2 (msgIndex + 1) (by rw [hroots]; exact hplaced)
      fun r hr => hnames r (mem_cons_of_mem _ hr)
    rw [hroots] at hrest
    refine ⟨hrest.keyed, ?_, ?_, ?_⟩
    · intro names x hx
      exact hrest.kept names x (filed_place_of_filed freshFolder hkeyed hfirst s hx)
    · intro k hk
      cases k with
      | zero =>
        obtain ⟨names, hfiled⟩ := exists_filed_place freshFolder hne hkeyed hfirst msgIndex s
        exact ⟨names, hrest.kept names _ hfiled⟩
      | succ k =>
        obtain ⟨names, hfiled⟩ := hrest.filed k (Nat.lt_of_succ_lt_succ hk)
        rw [show msgIndex + (k + 1) = msgIndex + 1 + k by omega]
        exact ⟨names, hfiled⟩
    · intro names x hx
      rcases hrest.routed names x hx with hbefore | ⟨k, r, rfl, hr, hkeys⟩
      · rcases filed_place freshFolder hkeyed hfirst hbefore with hold | ⟨rfl, hkeys⟩
        · exact .inl hold
        · exact .inr ⟨0, _, rfl, rfl, hkeys⟩
      · exact .inr ⟨k + 1, r, by omega, hr, hkeys⟩

omit [UnicodeTables] [Target] in
theorem length_routedBy [UnicodeTables] [Target] (plan : IncrementalFolderPlan)
    (nextNidIndex msgIndex : Nat) (messages : List MessageSource) :
    (routedBy opts plan nextNidIndex msgIndex messages).length = messages.length := by
  induction messages generalizing plan nextNidIndex msgIndex with
  | nil => rfl
  | cons msg rest ih => exact congrArg (· + 1) (ih _ _ _)

theorem segmentForm_routes (hlayout : opts.folderLayout = .preservePaths multi)
    (plan : IncrementalFolderPlan) (nextNidIndex msgIndex : Nat) (messages : List MessageSource)
    (hlabels : plan.PrefixForms) (hresidual : SegmentForm plan.residualName) :
    ∀ r ∈ routes opts plan nextNidIndex msgIndex messages, r ≠ [] ∧ ∀ s ∈ r, SegmentForm s := by
  induction messages generalizing plan nextNidIndex msgIndex with
  | nil =>
    intro r hr
    cases hr
  | cons msg rest ih =>
    obtain ⟨_, hmap, hname⟩ := assignMessage_preservePaths hlayout plan nextNidIndex msg msgIndex
    have hobserved := hlabels.observeSource msg
    intro r hr
    rcases List.mem_cons.mp hr with rfl | hr
    · refine ⟨route_ne_nil _ msg, fun s hs => segmentForm_route msg hobserved ?_ hs⟩
      rw [observeSource_residualName]
      exact hresidual
    · refine ih _ _ _ ?_ ?_ r hr
      · intro p label hlabel
        rw [hmap] at hlabel
        exact hobserved p label hlabel
      · rw [hname]
        exact hresidual

theorem prefixedKeys_eq_map_routes (hlayout : opts.folderLayout = .preservePaths multi)
    (plan : IncrementalFolderPlan) (nextNidIndex msgIndex : Nat) (messages : List MessageSource)
    (hresidual : plan.residualName = "Unique Mail") :
    prefixedKeys opts plan nextNidIndex msgIndex messages
      = (routes opts plan nextNidIndex msgIndex messages).map fun r => join "/" (r.map toAsciiLowercase) := by
  induction messages generalizing plan nextNidIndex msgIndex with
  | nil => rfl
  | cons msg rest ih =>
    obtain ⟨_, _, hname⟩ := assignMessage_preservePaths hlayout plan nextNidIndex msg msgIndex
    have hfirst := prefixedKey_eq_join_route msg
      ((observeSource_residualName plan msg).trans hresidual)
    have hrest := ih (plan.assignMessage nextNidIndex msg opts msgIndex).1
      (plan.assignMessage nextNidIndex msg opts msgIndex).2 (msgIndex + 1) (hname.trans hresidual)
    show (plan.observeSource msg).prefixedKey msg :: prefixedKeys opts _ _ _ rest = _
    rw [hfirst, hrest]
    rfl

end Run

/-! ## The keys of the folders that are written -/

def planFolders (opts : WritePstOpts) (nextNidIndex : Nat) (messages : List MessageSource) :
    IncrementalFolderPlan :=
  assignAll opts (start nextNidIndex opts).1 (start nextNidIndex opts).2 0 messages

def plannedRoutes (opts : WritePstOpts) (nextNidIndex : Nat) (messages : List MessageSource) :
    List (List String) :=
  routes opts (start nextNidIndex opts).1 (start nextNidIndex opts).2 0 messages

def expectedKeys (opts : WritePstOpts) (nextNidIndex : Nat) (messages : List MessageSource) : List String :=
  prefixedKeys opts (start nextNidIndex opts).1 (start nextNidIndex opts).2 0 messages

/-- Routes whose names are neither trimmed, dropped nor cut off when they are read back, and on
which the uppercase of the planner tells apart what ASCII lowercase tells apart. -/
structure KeepsKeys (routes : List (List String)) : Prop where
  trimmed : ∀ r ∈ routes, ∀ s ∈ r, trim s = s
  no_alias : ∀ r ∈ routes, ∀ s, r.head? = some s → isLeadingFolderAlias s = false
  depth : ∀ r ∈ routes, r.length ≤ maxFolderDepth
  fold : ∀ s ∈ routes.flatten, ∀ t ∈ routes.flatten,
    caseFoldKey s = caseFoldKey t → toAsciiLowercase s = toAsciiLowercase t

theorem start_preservePaths (hlayout : opts.folderLayout = .preservePaths multi) (nextNidIndex : Nat) :
    (start nextNidIndex opts).1.roots = [] ∧ (start nextNidIndex opts).1.PrefixForms ∧
      (start nextNidIndex opts).1.residualName = opts.residualFolderName := by
  unfold start
  rw [hlayout]
  refine ⟨rfl, ?_, rfl⟩
  have hlabelses : ∀ (seen : List String) (p label : String),
      (if 2 ≤ seen.length then uniqueSourcePrefixes seen else ∅).get p = some label → SegmentForm label := by
    intro seen p label hlabel
    split at hlabel
    · exact segmentForm_uniqueSourcePrefixes hlabel
    · cases hlabel
  exact hlabelses _

omit [Target] in
theorem KeepsKeys.map_lower_eq {routes : List (List String)} (h : KeepsKeys routes)
    {names r : List String} (hr : r ∈ routes) (hnames : ∀ n ∈ names, n ∈ routes.flatten)
    (hfold : names.map caseFoldKey = r.map caseFoldKey) :
    names.map toAsciiLowercase = r.map toAsciiLowercase := by
  have hmem : ∀ s ∈ r, s ∈ routes.flatten := fun s hs => List.mem_flatten.mpr ⟨r, hr, hs⟩
  clear hr
  induction names generalizing r with
  | nil =>
    rw [List.map_eq_nil_iff.mp hfold.symm]
  | cons n rest ih =>
    cases r with
    | nil => cases hfold
    | cons s r =>
      have hcons := List.cons.inj hfold
      rw [map_cons, map_cons,
        h.fold n (hnames n mem_cons_self) s (hmem s mem_cons_self) hcons.1,
        ih (fun m hm => hnames m (mem_cons_of_mem _ hm)) hcons.2
          fun t ht => hmem t (mem_cons_of_mem _ ht)]

omit [Target] in
theorem map_caseFoldKey_of_lower {names names' : List String}
    (h : names.map toAsciiLowercase = names'.map toAsciiLowercase) :
    names.map caseFoldKey = names'.map caseFoldKey := by
  induction names generalizing names' with
  | nil => rw [List.map_eq_nil_iff.mp h.symm]
  | cons n rest ih =>
    cases names' with
    | nil => cases h
    | cons m rest' =>
      have hcons := List.cons.inj h
      rw [map_cons, map_cons, ih hcons.2]
      congr 1
      exact toUppercase_eq_of_toAsciiLowercase_eq hcons.1

omit [UnicodeTables] [Target] in
theorem isLeadingFolderAlias_congr {s t : String} (hs : trim s = s) (ht : trim t = t)
    (h : toAsciiLowercase s = toAsciiLowercase t) : isLeadingFolderAlias s = isLeadingFolderAlias t := by
  unfold isLeadingFolderAlias
  rw [hs, ht, h]

omit [Target] in
theorem key_of_filed {routes : List (List String)} {roots : List PlannedFolder}
    (hkeeps : KeepsKeys routes) (hforms : ∀ r ∈ routes, r ≠ [] ∧ ∀ s ∈ r, SegmentForm s)
    (hfiles : FilesRoutes (· ∈ routes.flatten) routes 0 [] roots) {names : List String} {i : Nat}
    (hfiled : Filed roots names i) :
    ∃ r ∈ routes, routes[i]? = some r ∧ names.map caseFoldKey = r.map caseFoldKey ∧
      normalizeFolderPathKey (emittedPath names) = join "/" (r.map toAsciiLowercase) := by
  have hmem := hfiles.keyed.of_filed hfiled
  rcases hfiles.routed names i hfiled with hold | ⟨k, r, hk, hr, hfold⟩
  · cases hold with
    | here ht _ => cases ht
    | inside ht _ => cases ht
  have hroute : r ∈ routes := mem_of_getElem? hr
  have hlower := hkeeps.map_lower_eq hroute hmem hfold
  have hne : names ≠ [] := by
    rintro rfl
    exact (hforms r hroute).1 (List.map_eq_nil_iff.mp hfold.symm)
  have htrimmed : ∀ s ∈ routes.flatten, PathName s := by
    intro s hs
    obtain ⟨q, hq, hsq⟩ := List.mem_flatten.mp hs
    exact ⟨(hforms q hq).2 s hsq, hkeeps.trimmed q hq s hsq⟩
  have halias : ∀ s, names.head? = some s → isLeadingFolderAlias s = false := by
    intro s hs
    cases names with
    | nil => exact absurd rfl hne
    | cons n rest =>
      cases r with
      | nil => cases hfold
      | cons t r =>
        have hst : n = s := Option.some.inj hs
        rw [← hst, isLeadingFolderAlias_congr (htrimmed n (hmem n mem_cons_self)).trimmed
          (hkeeps.trimmed _ hroute t mem_cons_self) (List.cons.inj hlower).1]
        exact hkeeps.no_alias _ hroute t rfl
  have hdepth : names.length ≤ maxFolderDepth := by
    have hlen := congrArg length hfold
    rw [length_map, length_map] at hlen
    rw [hlen]
    exact hkeeps.depth r hroute
  refine ⟨r, hroute, ?_, hfold, ?_⟩
  · rw [hk, Nat.zero_add]
    exact hr
  · rw [normalizeFolderPathKey_emittedPath hne (fun s hs => htrimmed s (hmem s hs)) halias hdepth, hlower]

/-- **The keys of the folders that are written are the keys QC expects.** With preserved paths and
the default residual name, every message is in a folder, the key of its folder is the expected key
of its source path after the key of the prefix in force, and messages share a folder exactly when
these keys are the same. -/
theorem emitted_keys_eq_expected (opts : WritePstOpts) (nextNidIndex : Nat)
    (messages : List MessageSource) (multi : Bool) (hlayout : opts.folderLayout = .preservePaths multi)
    (hresidual : opts.residualFolderName = "Unique Mail")
    (hkeeps : KeepsKeys (plannedRoutes opts nextNidIndex messages)) :
    (∀ i < messages.length, ∃ names, Filed (planFolders opts nextNidIndex messages).roots names i) ∧
    (∀ i names, Filed (planFolders opts nextNidIndex messages).roots names i →
      (expectedKeys opts nextNidIndex messages)[i]? = some (normalizeFolderPathKey (emittedPath names))) ∧
    (∀ i j names names', Filed (planFolders opts nextNidIndex messages).roots names i →
      Filed (planFolders opts nextNidIndex messages).roots names' j →
        (names = names' ↔ (expectedKeys opts nextNidIndex messages)[i]?
          = (expectedKeys opts nextNidIndex messages)[j]?)) := by
  obtain ⟨hroots, hlabels, hname⟩ := start_preservePaths hlayout nextNidIndex
  have hforms := segmentForm_routes hlayout _ (start nextNidIndex opts).2 0 messages hlabels
    (by rw [hname, hresidual]; exact segmentForm_uniqueMail)
  have hkeys : expectedKeys opts nextNidIndex messages
      = (plannedRoutes opts nextNidIndex messages).map fun r => join "/" (r.map toAsciiLowercase) :=
    prefixedKeys_eq_map_routes hlayout _ _ 0 messages (hname.trans hresidual)
  have hfiles : FilesRoutes (· ∈ (plannedRoutes opts nextNidIndex messages).flatten)
      (plannedRoutes opts nextNidIndex messages) 0 [] (planFolders opts nextNidIndex messages).roots := by
    rw [← hroots]
    refine assignAll_files hlayout _ _ 0 messages (by rw [hroots]; exact keyed_nil) ?_
    exact fun r hr n hn => List.mem_flatten.mpr ⟨r, hr, hn⟩
  have hlength : (plannedRoutes opts nextNidIndex messages).length = messages.length :=
    length_map _ |>.trans (length_routedBy _ _ 0 messages)
  have hslash : ∀ r ∈ plannedRoutes opts nextNidIndex messages,
      r.map toAsciiLowercase ≠ [] ∧ ∀ s ∈ r.map toAsciiLowercase, '/' ∉ s.toList := by
    intro r hr
    refine ⟨fun hnil => (hforms r hr).1 (List.map_eq_nil_iff.mp hnil), fun s hs => ?_⟩
    obtain ⟨t, ht, rfl⟩ := List.mem_map.mp hs
    have hname : PathName t := ⟨(hforms r hr).2 t ht, hkeeps.trimmed r hr t ht⟩
    exact slash_notMem_toAsciiLowercase hname.slash_notMem
  refine ⟨?_, ?_, ?_⟩
  · intro i hi
    obtain ⟨names, hfiled⟩ := hfiles.filed i (hlength ▸ hi)
    rw [Nat.zero_add] at hfiled
    exact ⟨names, hfiled⟩
  · intro i names hfiled
    obtain ⟨r, _, hr, _, hkey⟩ := key_of_filed hkeeps hforms hfiles hfiled
    rw [hkeys, getElem?_map, hr, hkey]
    rfl
  · intro i j names names' hfiled hfiled'
    obtain ⟨r, hmem, hr, hfold, hkey⟩ := key_of_filed hkeeps hforms hfiles hfiled
    obtain ⟨r', hmem', hr', hfold', hkey'⟩ := key_of_filed hkeeps hforms hfiles hfiled'
    rw [hkeys, getElem?_map, getElem?_map, hr, hr', map_some, map_some, some_inj]
    constructor
    · rintro rfl
      rw [← hkey, ← hkey']
    · intro heq
      -- equal keys have equal names, so equal uppercase, and keys determine the path
      have hlower := join_injective rfl (hslash r hmem).1 (hslash r' hmem').1 (hslash r hmem).2
        (hslash r' hmem').2 heq
      refine hfiled.unique hfiles.keyed hfiled' ?_
      rw [hfold, hfold']
      exact map_caseFoldKey_of_lower hlower

omit [UnicodeTables] [Target] in
theorem emitted_keys_eq_expected_of_prefixed :
    ∃ (_ : UnicodeTables) (_ : Target) (opts : WritePstOpts) (messages : List MessageSource),
      expectedKeys opts 11 messages = ["a/inbox", "a/inbox", "unique mail"] ∧
      ∀ names names', Filed (planFolders opts 11 messages).roots names 0 →
        Filed (planFolders opts 11 messages).roots names' 1 → names = names' := by
  let _ : UnicodeTables := .ascii
  let _ : Target := .unix
  let opts : WritePstOpts := { knownSourcePaths := ["a.pst", "b.pst"] }
  let messages : List MessageSource :=
    [⟨some "Inbox", some "a.pst"⟩, ⟨some "Root/INBOX", some "a.pst"⟩, ⟨none, none⟩]
  have hroutes : plannedRoutes opts 11 messages = [["a", "Inbox"], ["a", "INBOX"], ["Unique Mail"]] := by
    decide +kernel
  have hkeeps : KeepsKeys (plannedRoutes opts 11 messages) := by
    rw [hroutes]
    refine ⟨by decide +kernel, ?_, by decide, by decide +kernel⟩
    intro r hr s hs
    have halias : ∀ r ∈ [["a", "Inbox"], ["a", "INBOX"], ["Unique Mail"]], ∀ s ∈ r,
        isLeadingFolderAlias s = false := by decide +kernel
    exact halias r hr s (mem_of_head? hs)
  have hrun := emitted_keys_eq_expected opts 11 messages true rfl (by decide) hkeeps
  have hkeys : expectedKeys opts 11 messages = ["a/inbox", "a/inbox", "unique mail"] := by
    decide +kernel
  refine ⟨_, _, opts, messages, hkeys, fun names names' hfiled hfiled' => ?_⟩
  rw [hrun.2.2 0 1 names names' hfiled hfiled', hkeys]
  rfl

/-- Every message lies in the folder that its source path asks for. -/
def KeysMatch (opts : WritePstOpts) (messages : List MessageSource) : Prop :=
  ∀ nextNidIndex i names msg, messages[i]? = some msg →
    Filed (planFolders opts nextNidIndex messages).roots names i → normalizeFolderPathKey (emittedPath names)
        = folderPathQcExpectedKey (msg.sourceFolderPath.getD "")

theorem filed_first (hlayout : opts.folderLayout = .preservePaths multi) (nextNidIndex : Nat)
    (msg : MessageSource) :
    Filed (planFolders opts nextNidIndex [msg]).roots
      (((start nextNidIndex opts).1.observeSource msg).route msg) 0 := by
  obtain ⟨⟨s, hroots⟩, _⟩ := assignMessage_preservePaths hlayout (start nextNidIndex opts).1
    (start nextNidIndex opts).2 msg 0
  show Filed (assignMessage _ _ msg opts 0).1.roots _ 0
  rw [hroots, (start_preservePaths hlayout nextNidIndex).1]
  exact filed_place_nil freshFolder (route_ne_nil _ msg) 0 s

theorem filed_first_flat (opts : WritePstOpts) {name : String} (hflat : opts.folderLayout = .flat name)
    (hname : name ≠ "") (nextNidIndex : Nat) (msg : MessageSource) :
    Filed (planFolders opts nextNidIndex [msg]).roots [name] 0 := by
  have hstart : (start nextNidIndex opts).1.residualName = name ∧
      ∃ nid, (start nextNidIndex opts).1.roots = [⟨name, caseFoldKey name, [], [], nid⟩] := by
    unfold start
    rw [hflat]
    dsimp only
    rw [if_neg hname]
    exact ⟨rfl, _, rfl⟩
  obtain ⟨hresidual, nid, hroots⟩ := hstart
  obtain ⟨s, hassigned⟩ :=
    assignMessage_flat (start nextNidIndex opts).1 (start nextNidIndex opts).2 msg 0 hflat
  show Filed (assignMessage _ _ msg opts 0).1.roots _ 0
  rw [hassigned, hresidual, hroots]
  exact filed_place_singleton freshFolder caseFoldKey name 0 nid s

theorem not_keysMatch_of_first
    (hlayout : opts.folderLayout = .preservePaths multi) {msg : MessageSource} (names : List String)
    (hroute : ((start 11 opts).1.observeSource msg).route msg = names)
    (hkey : normalizeFolderPathKey (emittedPath names)
      ≠ folderPathQcExpectedKey (msg.sourceFolderPath.getD "")) : ¬ KeysMatch opts [msg] := by
  intro hmatch
  refine hkey (hmatch 11 0 names msg rfl ?_)
  rw [← hroute]
  exact filed_first hlayout 11 msg

theorem not_keysMatch_of_spellings
    (hlayout : opts.folderLayout = .preservePaths multi) {a b : MessageSource} {r q : List String}
    (hroutes : plannedRoutes opts 11 [a, b] = [r, q]) (hfold : r.map caseFoldKey = q.map caseFoldKey)
    (hkey : folderPathQcExpectedKey (a.sourceFolderPath.getD "")
      ≠ folderPathQcExpectedKey (b.sourceFolderPath.getD "")) : ¬ KeysMatch opts [a, b] := by
  intro hmatch
  have hstart := (start_preservePaths hlayout 11).1
  have hfiles := assignAll_files (P := fun _ => True) hlayout (start 11 opts).1
    (start 11 opts).2 0 [a, b] (by rw [hstart]; exact keyed_nil) fun _ _ _ _ => trivial
  rw [show routes opts _ _ 0 [a, b] = [r, q] from hroutes, hstart] at hfiles
  have hpath : ∀ names i, Filed (planFolders opts 11 [a, b]).roots names i →
      names.map caseFoldKey = r.map caseFoldKey := by
    intro names i hfiled
    rcases hfiles.routed names i hfiled with hold | ⟨k, r', _, hr', hnames⟩
    · cases hold with
      | here ht _ => cases ht
      | inside ht _ => cases ht
    · match k, hr' with
      | 0, hr' => rw [hnames, Option.some.inj hr']
      | 1, hr' => rw [hnames, hfold, Option.some.inj hr']
  obtain ⟨names, hfiled⟩ := hfiles.filed 0 Nat.zero_lt_two
  obtain ⟨names', hfiled'⟩ := hfiles.filed 1 Nat.one_lt_two
  rw [Nat.zero_add] at hfiled hfiled'
  have hsame : names = names' := hfiled.unique hfiles.keyed hfiled'
    ((hpath names 0 hfiled).trans (hpath names' 1 hfiled').symm)
  have hfirst := hmatch 11 0 names a rfl hfiled
  have hsecond := hmatch 11 1 names' b rfl hfiled'
  rw [← hsame] at hsecond
  exact hkey (hfirst.symm.trans hsecond)

omit [UnicodeTables] [Target] in
/-- **Where the keys differ**: a flat layout, another residual name, a prefix, a name that is an
alias only once it is sanitized, whitespace before a trailing dot, and a letter outside ASCII in its
two cases. -/
theorem emitted_keys_differ :
    (¬ ∀ [UnicodeTables] [Target], KeysMatch { folderLayout := .flat "Export" } [⟨some "Inbox", none⟩]) ∧
    (¬ ∀ [UnicodeTables] [Target], KeysMatch { folderDisplayName := "Rest" } [⟨none, none⟩]) ∧
    (¬ ∀ [UnicodeTables] [Target], KeysMatch { knownSourcePaths := ["a.pst", "b.pst"] }
      [⟨some "Inbox", some "a.pst"⟩]) ∧
    (¬ ∀ [UnicodeTables] [Target], KeysMatch { } [⟨some "root./Inbox", none⟩]) ∧
    (¬ ∀ [UnicodeTables] [Target], KeysMatch { } [⟨some "Inbox\u00A0.", none⟩]) ∧
    (¬ ∀ [UnicodeTables] [Target], KeysMatch { } [⟨some "\u00C9t\u00E9", none⟩,
      ⟨some "\u00E9t\u00E9", none⟩]) := by
  let _ : Target := .unix
  refine ⟨fun h => ?_, fun h => ?_, fun h => ?_, fun h => ?_, fun h => ?_, fun h => ?_⟩
  · let _ : UnicodeTables := .ascii
    have hfiled := filed_first_flat { folderLayout := .flat "Export" } rfl (by decide) 11
      ⟨some "Inbox", none⟩
    exact absurd (h 11 0 ["Export"] _ rfl hfiled) (by decide +kernel)
  · let _ : UnicodeTables := .ascii
    exact not_keysMatch_of_first rfl ["Rest"] (by decide +kernel) (by decide +kernel) h
  · let _ : UnicodeTables := .ascii
    exact not_keysMatch_of_first rfl ["a", "Inbox"] (by decide +kernel) (by decide +kernel) h
  · let _ : UnicodeTables := .ascii
    exact not_keysMatch_of_first rfl ["root", "Inbox"] (by decide +kernel) (by decide +kernel) h
  · let _ : UnicodeTables := .ascii
    exact not_keysMatch_of_first rfl ["Inbox\u00A0"] (by decide +kernel) (by decide +kernel) h
  · -- tables with the uppercase of the one letter outside ASCII that the run has
    let _ : UnicodeTables :=
      ⟨fun c => if c = '\u00E9' then ['\u00C9'] else [c.toUpper],
        fun c hc => if_neg (by rintro rfl; exact absurd hc (by decide))⟩
    have hroutes : plannedRoutes { } 11 [⟨some "\u00C9t\u00E9", none⟩, ⟨some "\u00E9t\u00E9", none⟩]
        = [["\u00C9t\u00E9"], ["\u00E9t\u00E9"]] := by decide +kernel
    exact not_keysMatch_of_spellings rfl hroutes (by decide +kernel) (by decide +kernel) h

end IncrementalFolderPlan

end PstWriter
