import UserDirectory.Proofs.Search.Bundles
import UserDirectory.Proofs.Search.Depth
import UserDirectory.Proofs.Search.Scopes

/-!
# Searches that are nested too deep

A caller's condition is a filter on its own, and so is every scope of an accepted
configuration. What a search reads, though, is their conjunction, which is put together
layer by layer: each further one goes into a new pair, beside all that came before it.
So the first condition and the second stand furthest in, and every other one level
further out than the one before it (`placements`).

Narrowing a search can therefore make it fail, and it does so in one way only: if a
condition, in the directory's names and at its place, goes deeper than a filter may
(`compileWhere_ok_iff_shallow`). There are four layers at most, and renaming adds one
level at most, so that 28 levels are always safe.
-/

namespace UserDirectory

/-! ## Conditions in pairs -/

/-- The condition that both conditions hold. -/
def bothConditions (v w : Json) : Json := .obj [("and", .arr [v, w])]

theorem renameCondition_both (rename : String → Json → String) (v w : Json) :
    renameCondition rename (bothConditions v w) =
      bothConditions (renameCondition rename v) (renameCondition rename w) := rfl

theorem Json.Decided.both {v w : Json} (hv : v.Decided) (hw : w.Decided) :
    (bothConditions v w).Decided := by
  refine ⟨_, rfl, List.forall_mem_singleton.2 (Json.decidedUnder_group Demand.ofKey_and ?_)⟩
  exact List.forall_mem_cons.2 ⟨hv, List.forall_mem_singleton.2 hw⟩

theorem Json.Decided.levels_both {v w : Json} (hv : v.Decided) (hw : w.Decided) :
    (bothConditions v w).levels = max v.levels w.levels + 1 := by
  obtain ⟨fields, rfl, -⟩ := hv
  obtain ⟨fields', rfl, -⟩ := hw
  show max (max (Json.fieldLevels fields + 1) (max (Json.fieldLevels fields' + 1) 0)) 0
    = max (Json.fieldLevels fields) (Json.fieldLevels fields') + 1
  omega

/-- A conjunction of several conditions is built in pairs from those that ask something. -/
theorem exists_foldl_conjunction (v : Json) (layers : List Json) :
    (askingConditions (v :: layers) = [] ∧
        isEmptyCondition (layers.foldl conjunction v) = true) ∨
      ∃ w rest, askingConditions (v :: layers) = w :: rest ∧
        layers.foldl conjunction v = rest.foldl bothConditions w := by
  induction layers generalizing v with
  | nil =>
    cases hv : isEmptyCondition v with
    | true => exact .inl ⟨by simp [askingConditions, hv], hv⟩
    | false => exact .inr ⟨v, [], by simp [askingConditions, hv], rfl⟩
  | cons w rest ih =>
    rw [List.foldl_cons]
    cases hw : isEmptyCondition w with
    | true =>
      have hsame : conjunction v w = v := if_pos hw
      rw [hsame, show askingConditions (v :: w :: rest) = askingConditions (v :: rest) by
        simp [askingConditions, List.filter_cons, hw]]
      exact ih v
    | false =>
      cases hv : isEmptyCondition v with
      | true =>
        have hsame : conjunction v w = w := by simp [conjunction, hv, hw]
        rw [hsame, show askingConditions (v :: w :: rest) = askingConditions (w :: rest) by
          simp [askingConditions, List.filter_cons, hv]]
        exact ih w
      | false =>
        have hboth : conjunction v w = bothConditions v w := by
          simp [conjunction, bothConditions, hv, hw]
        rw [hboth]
        refine .inr ⟨v, w :: askingConditions rest,
          by simp [askingConditions, hv, hw], ?_⟩
        obtain ⟨hnone, -⟩ | ⟨first, others, hasking, hfold⟩ := ih (bothConditions v w)
        · exact absurd hnone (List.cons_ne_nil _ _)
        · obtain ⟨rfl, rfl⟩ := List.cons.inj hasking
          exact hfold

theorem isEmptyCondition_foldl_both {v : Json} (hv : isEmptyCondition v = false)
    (rest : List Json) : isEmptyCondition (rest.foldl bothConditions v) = false := by
  induction rest generalizing v with
  | nil => exact hv
  | cons w rest ih => exact ih rfl

/-! ## Where conditions stand -/

/-- Where the conditions stand that are put beside those before them. -/
def furtherPlacements : List Json → List (Json × Nat)
  | [] => []
  | v :: rest => (v, rest.length + 1) :: furtherPlacements rest

/-- **Where each of several conditions stands** in their conjunction, with its depth. -/
def placements : List Json → List (Json × Nat)
  | [] => []
  | v :: rest => (v, rest.length) :: furtherPlacements rest

theorem mem_furtherPlacements {layers : List Json} {p : Json × Nat}
    (h : p ∈ furtherPlacements layers) : p.1 ∈ layers ∧ p.2 ≤ layers.length := by
  induction layers with
  | nil => exact absurd h List.not_mem_nil
  | cons v rest ih =>
    rcases List.mem_cons.1 h with rfl | h
    · exact ⟨List.mem_cons_self, Nat.le_refl _⟩
    · exact ⟨List.mem_cons_of_mem v (ih h).1, (ih h).2.trans (Nat.le_succ _)⟩

theorem mem_placements {layers : List Json} {p : Json × Nat} (h : p ∈ placements layers) :
    p.1 ∈ layers ∧ p.2 < layers.length := by
  cases layers with
  | nil => exact absurd h List.not_mem_nil
  | cons v rest =>
    rcases List.mem_cons.1 h with rfl | h
    · exact ⟨List.mem_cons_self, Nat.lt_succ_self _⟩
    · obtain ⟨hmem, hle⟩ := mem_furtherPlacements h
      exact ⟨List.mem_cons_of_mem v hmem, Nat.lt_succ_of_le hle⟩

/-- **The conjunction goes as deep as its conditions** at their places. -/
theorem decided_foldl_both {rename : String → Json → String} {layers : List Json} {v : Json}
    (hv : (renameCondition rename v).Decided)
    (h : ∀ w ∈ layers, (renameCondition rename w).Decided) :
    (renameCondition rename (layers.foldl bothConditions v)).Decided ∧
      ∀ n, (renameCondition rename (layers.foldl bothConditions v)).levels ≤ n ↔
        ∀ p ∈ placements (v :: layers), p.2 + (renameCondition rename p.1).levels ≤ n := by
  induction layers generalizing v with
  | nil =>
    refine ⟨hv, fun n => ?_⟩
    rw [placements, furtherPlacements, List.forall_mem_singleton, List.length_nil, Nat.zero_add]
    rfl
  | cons w rest ih =>
    rw [List.forall_mem_cons] at h
    have hboth : (renameCondition rename (bothConditions v w)).Decided := by
      rw [renameCondition_both]
      exact hv.both h.1
    obtain ⟨hdecided, hlevels⟩ := ih hboth h.2
    refine ⟨hdecided, fun n => (hlevels n).trans ?_⟩
    rw [placements, placements, furtherPlacements, List.forall_mem_cons, List.forall_mem_cons,
      List.forall_mem_cons, renameCondition_both, hv.levels_both h.1, List.length_cons, ← and_assoc]
    refine and_congr_left' ?_
    show _ ↔ rest.length + 1 + (renameCondition rename v).levels ≤ n ∧
      rest.length + 1 + (renameCondition rename w).levels ≤ n
    omega

/-! ## Searches -/

namespace ConnectorSettings

variable {c : ConnectorConfig} {s : ConnectorSettings} {model : String} {condition : Option Json}

/-- **The conditions of a search fit**: of its layers that ask something, none goes too
deep at its place, in the directory's names. -/
def Fits (s : ConnectorSettings) (model : String) (condition : Option Json) : Prop :=
  ∀ p ∈ placements (askingConditions (s.layers model condition)),
    p.2 + (renameCondition (s.remoteKey model) p.1).levels ≤ 32

instance (s : ConnectorSettings) (model : String) (condition : Option Json) :
    Decidable (s.Fits model condition) :=
  inferInstanceAs (Decidable (∀ p ∈ placements _, _))

theorem compileWhere_eq_map (s : ConnectorSettings) (model : String) (condition : Option Json) :
    s.compileWhere model condition =
      (s.compileScoped model condition).map (·.filter (!·.isEmpty)) := by
  unfold compileWhere
  cases s.compileScoped model condition <;> rfl

theorem askingConditions_layers (s : ConnectorSettings) (model : String)
    (condition : Option Json) :
    askingConditions (s.layers model condition) =
      askingConditions (condition.getD .null :: s.scopeConditions model) := by
  rw [layers_eq]
  cases condition <;> rfl

/-- **The depth of the conditions decides a search** whose layers are filters. -/
theorem depthDecides_compileWhere (hr : MovesToFields (s.remoteKey model))
    (h : ∀ v ∈ s.layers model condition, ∃ f, Filter.ofJson v = .ok f) :
    DepthDecides (s.Fits model condition) (s.compileWhere model condition) := by
  have hdecided : ∀ v ∈ askingConditions (s.layers model condition),
      (renameCondition (s.remoteKey model) v).Decided := fun v hv => by
    obtain ⟨hmem, hasks⟩ := List.mem_filter.1 hv
    obtain ⟨f, hf⟩ := h v hmem
    refine hr.decided_renameCondition hf ?_
    rintro rfl
    exact absurd hasks nofun
  rw [compileWhere_eq_map]
  refine DepthDecides.map ?_ _
  unfold compileScoped Fits scopedWhere
  rw [askingConditions_layers] at hdecided ⊢
  obtain ⟨hnone, hempty⟩ | ⟨v, rest, hasking, hfold⟩ :=
    exists_foldl_conjunction (condition.getD .null) (s.scopeConditions model)
  · rw [hnone, if_pos hempty]
    exact .of_ok (List.forall_mem_nil _) none
  · have hv : isEmptyCondition v = false := by
      have hmem : v ∈ askingConditions (condition.getD .null :: s.scopeConditions model) :=
        hasking ▸ List.mem_cons_self
      simpa using (List.mem_filter.1 hmem).2
    rw [hasking, List.forall_mem_cons] at hdecided
    obtain ⟨hwhole, hlevels⟩ := decided_foldl_both hdecided.1 hdecided.2
    rw [hasking, hfold, if_neg (by simp [isEmptyCondition_foldl_both hv])]
    exact (hwhole.ofJson.congr (hlevels 32)).map fun f => some f.compile

/-- There are at most four layers. -/
theorem length_layers_le (s : ConnectorSettings) (model : String) (condition : Option Json) :
    (s.layers model condition).length ≤ 4 :=
  List.reduceOption_length_le _

/-- Layers with 28 levels fit: at most three are added around them, and one in them. -/
theorem fits_of_levels_le (hr : MovesToFields (s.remoteKey model))
    (h : ∀ v ∈ s.layers model condition, ∃ f, Filter.ofJson v = .ok f)
    (hlevels : ∀ v ∈ s.layers model condition, v.WellFormed ∧ v.levels ≤ 28) :
    s.Fits model condition := by
  intro p hp
  obtain ⟨hmem, hdepth⟩ := mem_placements hp
  have hasking := List.length_filter_le (fun v => !isEmptyCondition v) (s.layers model condition)
  have hfour := s.length_layers_le model condition
  have hlayer := (List.mem_filter.1 hmem).1
  obtain ⟨f, hf⟩ := h p.1 hlayer
  obtain ⟨hwf, hbound⟩ := hlevels p.1 hlayer
  have hrenamed := hr.levels_renameCondition hf hwf
  rw [askingConditions] at hdepth
  omega

/-- **Only its depth can make a narrowed search fail.** Let a configuration be accepted,
let the mapping of the model move names to names of fields, and let the caller's
condition be a filter on its own. Then the search has a result if and only if every
condition that it is made of, in the directory's names and at its place, goes no deeper
than 32; if one does, the error is that of a filter too deep. In particular there is a
result, whatever the conditions say, if neither the caller's nor a scope goes deeper
than 28 on its own. -/
theorem compileWhere_ok_iff_shallow (h : ofConfig c = .ok s)
    (hmapping : (s.mapper.table model .serialize).MovesToFields)
    (hcaller : ∀ v ∈ condition, ∃ f, Filter.ofJson v = .ok f) :
    ((∃ r, s.compileWhere model condition = .ok r) ↔ s.Fits model condition) ∧
      (∀ e, s.compileWhere model condition = .error e → e = .tooDeep 32) ∧
      ((∀ v ∈ condition.toList ++ c.searchScopes model, v.WellFormed ∧ v.levels ≤ 28) →
        ∃ r, s.compileWhere model condition = .ok r) := by
  have hr := movesToFields_remoteKey hmapping
  have hlayers : ∀ v ∈ s.layers model condition, ∃ f, Filter.ofJson v = .ok f := fun v hv => by
    rw [layers_eq] at hv
    rcases List.mem_append.1 hv with hv | hv
    · exact hcaller v (Option.mem_toList.1 hv)
    · exact exists_filter_of_scope h hv
  have hdepth := depthDecides_compileWhere hr hlayers
  refine ⟨hdepth.ok_iff, fun e he => ?_, fun hshallow => ?_⟩
  · rcases hdepth with ⟨-, r, hok⟩ | ⟨-, herror⟩
    · exact absurd (hok.symm.trans he) nofun
    · exact Except.error.inj (he.symm.trans herror)
  · refine hdepth.ok_iff.2 (fits_of_levels_le hr hlayers fun v hv => ?_)
    rw [layers_of_ofConfig h, ← List.append_assoc] at hv
    rcases List.mem_append.1 hv with hv | hv
    · exact hshallow v hv
    · -- the condition on the connection has no level of its own
      unfold connectionScope at hv
      split at hv
      · obtain rfl := List.mem_singleton.1 hv
        exact ⟨⟨List.pairwise_singleton _ _, trivial, trivial⟩, Nat.zero_le 28⟩
      · exact absurd hv List.not_mem_nil

/-! ## At the limit -/

/-- A condition under so many conjunctions. -/
def nestedCondition (v : Json) : Nat → Json
  | 0 => v
  | n + 1 => .obj [("and", .arr [nestedCondition v n])]

/-- A condition with two keys that come to one name, as deep as it may be with a scope and
the connection beside it. -/
theorem compileWhere_ok_iff_shallow_limit :
    let pair : Json := .obj [("email", .str "b@c.org"), ("id", .str "a@b.org")]
    let caller := nestedCondition pair 29
    let s := scopedSettings halfScope
    ofConfig (scopedConfig halfScope) = .ok s ∧
      (s.mapper.table "user" .serialize).MovesToFields ∧
      (∃ f, Filter.ofJson caller = .ok f) ∧ s.Fits "user" (some caller) ∧
      ¬s.Fits "user" (some (nestedCondition pair 30)) ∧
      ∃ r, s.compileWhere "user" (some caller) = .ok r := by
  intro pair caller s
  have hmapping : (s.mapper.table "user" .serialize).MovesToFields := by decide
  have hcaller : ∃ f, Filter.ofJson caller = .ok f := by
    have hquery : (Filter.ofJson caller).map Filter.compile
        = .ok ⟨"email:\"b@c.org\" AND id:\"a@b.org\"", []⟩ := by decide +kernel
    obtain ⟨f, hf, -⟩ := map_eq_ok_iff.1 hquery
    exact ⟨f, hf⟩
  have hfits : s.Fits "user" (some caller) := by decide +kernel
  have hread := @compileWhere_ok_iff_shallow (scopedConfig halfScope) s "user" (some caller) rfl
    hmapping (fun v hv => Option.some.inj hv ▸ hcaller)
  exact ⟨rfl, hmapping, hcaller, hfits, by decide +kernel, hread.1.2 hfits⟩

/-- A configuration with a mapping and no scope. -/
def mappedConfig (pairs : List (String × String)) : ConnectorConfig :=
  { scopedConfig (.obj []) with serializeMapping := some (.ofList pairs) }

/-- **Conditions that are filters on their own and no longer when narrowed.** A caller's
condition with 32 levels fails beside the condition on the connection, and so does a
scope, with which no search has a result. Where an operator without a counterpart is the
name of a field, its value is to be an operand; and the empty name, which counts as
mapped to nothing, can become a conjunction. -/
theorem compileWhere_fails_when_narrowed :
    let deep := nestedCondition (.obj [("leaf", .num (.int 1))]) 32
    let place : Json := .obj [("near", .arr [.arr [.num (.int 1)]])]
    let unnamed : Json := .obj [("", .num (.int 1))]
    let s := scopedSettings (.obj [])
    ((Filter.ofJson deep).map Filter.compile = .ok ⟨"leaf:1", []⟩ ∧
        ofConfig (scopedConfig (.obj [])) = .ok s ∧
        (s.mapper.table "user" .serialize).live = [] ∧
        s.compileWhere "user" (some deep) = .error (.tooDeep 32)) ∧
      (ofConfig (scopedConfig deep)).map (·.compileWhere "user" none) =
        .ok (.error (.tooDeep 32)) ∧
      ((Filter.ofJson place).map Filter.compile =
          .ok ⟨"", [⟨"near", none, .unsupportedOperator⟩]⟩ ∧
        FilterKey.ofKey "place" = .field ∧
        (ofConfig (mappedConfig [("near", "place")])).map
            (fun s => ((s.mapper.table "user" .serialize).live, s.compileWhere "user" (some place))) =
          .ok ([("near", "place")], .error (.invalidOperand "place" .scalars))) ∧
      ((Filter.ofJson unnamed).map Filter.compile = .ok ⟨":1", []⟩ ∧
        (ofConfig (mappedConfig [("", "and")])).map
            (fun s => ((s.mapper.table "user" .serialize).live, s.compileWhere "user" (some unnamed))) =
          .ok ([], .error (.logicalOperand "and"))) := by
  refine ⟨⟨?_, rfl, rfl, ?_⟩, ?_, ⟨?_, ?_, ?_⟩, ?_, ?_⟩ <;> decide +kernel

end ConnectorSettings

end UserDirectory
