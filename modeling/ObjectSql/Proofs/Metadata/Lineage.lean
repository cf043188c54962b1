import Mathlib.Data.List.Induction
import Mathlib.Data.List.Perm.Subperm
import Mathlib.Order.MinMax
import ObjectSql.Proofs.Metadata.Chain

/-!
# Chains of registered classes

Following superclass links is a climb: the class of a name is met, then its superclass is looked up.
A climb meets no name twice, so it is over after as many classes as are registered: at a root, at a
name that is not registered or at one that has been met. The chain of a class is what a climb has
met that ends at a root.
-/
namespace ObjectSql.Catalog

/-! ## Links -/

section Links

variable (find : String → Option ClassMapping)

/-- The classes from a name up to the root, as the links tell them. -/
inductive Lineage : String → List ClassMapping → Prop
  | root {name k} (hk : find name = some k) (hroot : k.superclass = none) : Lineage name [k]
  | link {name k parent above} (hk : find name = some k) (hparent : k.superclass = some parent)
      (habove : Lineage parent above) : Lineage name (k :: above)

/-- The classes that have been met on the way from a name, and the name to look up next. -/
inductive Climb (name : String) : List ClassMapping → String → Prop
  | start : Climb name [] name
  | step {met next k parent} (climb : Climb name met next)
      (hnew : next ∉ met.map ClassMapping.name) (hk : find next = some k)
      (hparent : k.superclass = some parent) : Climb name (met ++ [k]) parent

/-- Where a climb cannot go on, and what it leads to. -/
inductive Ends (met : List ClassMapping) (next : String) :
    Except MetadataFault (List ClassMapping) → Prop
  | root {k} (hnew : next ∉ met.map ClassMapping.name) (hk : find next = some k)
      (hroot : k.superclass = none) : Ends met next (.ok (met ++ [k]))
  | unknown (hnone : find next = none) : Ends met next (.error (.unknownClass next))
  | cycle (hmet : next ∈ met.map ClassMapping.name) :
      Ends met next (.error (.inheritanceCycle next))

variable {find} {name next next' : String} {k : ClassMapping}
  {met met' chain chain' : List ClassMapping} {r r' : Except MetadataFault (List ClassMapping)}

/-! ### Climbs -/

/-- Classes that are found under their own names are met once. -/
theorem Climb.nodup (hname : ∀ n k, find n = some k → k.name = n) (h : Climb find name met next) :
    (met.map ClassMapping.name).Nodup ∧ ∀ k ∈ met, find k.name = some k := by
  induction h with
  | start => simp
  | @step met next k parent _ hnew hk _ ih =>
    obtain ⟨hnodup, hfound⟩ := ih
    obtain rfl : k.name = next := hname next k hk
    refine ⟨?_, fun k' hk' => ?_⟩
    · rw [List.map_append, List.map_singleton, List.nodup_append_comm]
      exact List.nodup_cons.mpr ⟨hnew, hnodup⟩
    · rcases List.mem_append.mp hk' with hk' | hk'
      · exact hfound k' hk'
      · obtain rfl := List.mem_singleton.mp hk'
        exact hk

/-- A climb has gone on from each state before. -/
theorem Climb.step_of_lt {n : Nat} (h : Climb find name met next) (hn : n < met.length) :
    ∃ next' k parent, Climb find name (met.take n) next' ∧
      next' ∉ (met.take n).map ClassMapping.name ∧ find next' = some k ∧
        k.superclass = some parent := by
  induction h with
  | start => cases hn
  | @step met next k parent climb hnew hk hparent ih =>
    rw [List.length_append, List.length_singleton] at hn
    rcases Nat.lt_succ_iff_lt_or_eq.mp hn with hn | rfl
    · rw [List.take_append_of_le_length hn.le]
      exact ih hn
    · rw [List.take_left]
      exact ⟨next, k, parent, climb, hnew, hk, hparent⟩

theorem Climb.eq_of_length (h : Climb find name met next) (h' : Climb find name met' next')
    (hlength : met.length = met'.length) : met = met' ∧ next = next' := by
  induction h generalizing met' next' with
  | start =>
    cases h' with
    | start => exact ⟨rfl, rfl⟩
    | step => simp at hlength
  | step _ _ hk hparent ih =>
    cases h' with
    | start => simp at hlength
    | step climb' _ hk' hparent' =>
      obtain ⟨rfl, rfl⟩ := ih climb' (by simpa using hlength)
      cases hk.symm.trans hk'
      cases hparent.symm.trans hparent'
      exact ⟨rfl, rfl⟩

theorem Ends.not_step {parent : String} (h : Ends find met next r)
    (hnew : next ∉ met.map ClassMapping.name) (hk : find next = some k) :
    k.superclass ≠ some parent := by
  cases h with
  | root _ hk' hroot =>
    cases hk.symm.trans hk'
    simp [hroot]
  | unknown hnone => simp [hnone] at hk
  | cycle hmet => exact absurd hmet hnew

theorem Ends.unique (hfound : ∀ k ∈ met, find k.name = some k) (h : Ends find met next r)
    (h' : Ends find met next r') : r = r' := by
  have hregistered (hmet : next ∈ met.map ClassMapping.name) : find next ≠ none := by
    obtain ⟨k, hk, rfl⟩ := List.mem_map.mp hmet
    simp [hfound k hk]
  cases h <;> cases h' <;> simp_all

/-- Climbs from a name end in one way. -/
theorem Climb.ends_unique (hname : ∀ n k, find n = some k → k.name = n)
    (h : Climb find name met next) (hr : Ends find met next r) (h' : Climb find name met' next')
    (hr' : Ends find met' next' r') : r = r' := by
  -- the shorter of two climbs would have to go on
  have hnot {met met' : List ClassMapping} {next next' : String} {r}
      (h : Climb find name met next) (hr : Ends find met next r)
      (h' : Climb find name met' next') : ¬met.length < met'.length := by
    intro hlt
    obtain ⟨next'', k, parent, htake, hnew, hk, hparent⟩ := h'.step_of_lt hlt
    obtain ⟨hmet, rfl⟩ := h.eq_of_length htake (by rw [List.length_take, min_eq_left hlt.le])
    exact hr.not_step (hmet ▸ hnew) hk hparent
  obtain ⟨rfl, rfl⟩ := h.eq_of_length h'
    (le_antisymm (not_lt.mp (hnot h' hr' h)) (not_lt.mp (hnot h hr h')))
  exact hr.unique (h.nodup hname).2 hr'

/-! ### Lineages -/

theorem Lineage.exists_cons (h : Lineage find name chain) :
    ∃ k above, chain = k :: above ∧ find name = some k := by
  cases h with
  | root hk => exact ⟨_, _, rfl, hk⟩
  | link hk => exact ⟨_, _, rfl, hk⟩

theorem Lineage.unique (h : Lineage find name chain) (h' : Lineage find name chain') :
    chain = chain' := by
  induction h generalizing chain' with
  | root hk hroot =>
    cases h' with
    | root hk' =>
      cases hk.symm.trans hk'
      rfl
    | link hk' hparent' =>
      cases hk.symm.trans hk'
      cases hroot.symm.trans hparent'
  | link hk hparent _ ih =>
    cases h' with
    | root hk' hroot' =>
      cases hk.symm.trans hk'
      cases hparent.symm.trans hroot'
    | link hk' hparent' habove' =>
      cases hk.symm.trans hk'
      cases hparent.symm.trans hparent'
      rw [ih habove']

/-- The rest of a lineage from one of its classes on is the lineage of this class. -/
theorem Lineage.of_mem (hname : ∀ n k, find n = some k → k.name = n)
    (h : Lineage find name chain) (hk : k ∈ chain) :
    ∃ above, Lineage find k.name above ∧ above.length ≤ chain.length := by
  induction h with
  | root hfind hroot =>
    obtain rfl := List.mem_singleton.mp hk
    exact ⟨_, .root (hname _ _ hfind ▸ hfind) hroot, le_rfl⟩
  | link hfind hparent habove ih =>
    rcases List.mem_cons.mp hk with rfl | hk
    · exact ⟨_, .link (hname _ _ hfind ▸ hfind) hparent habove, le_rfl⟩
    · obtain ⟨above, hlineage, hlength⟩ := ih hk
      exact ⟨above, hlineage, hlength.trans (Nat.le_succ _)⟩

/-- What comes back to a name has no end, so no name is in a lineage twice. -/
theorem Lineage.nodup (hname : ∀ n k, find n = some k → k.name = n)
    (h : Lineage find name chain) : (chain.map ClassMapping.name).Nodup := by
  induction h with
  | root => simp
  | @link name k parent above hk hparent habove ih =>
    refine List.nodup_cons.mpr ⟨fun hmem => ?_, ih⟩
    obtain ⟨k', hk', heq⟩ := List.mem_map.mp hmem
    obtain ⟨again, hagain, hlength⟩ := habove.of_mem hname hk'
    rw [heq, hname name k hk] at hagain
    rw [hagain.unique (.link hk hparent habove)] at hlength
    exact absurd hlength (by simp)

theorem Lineage.isChain (hname : ∀ n k, find n = some k → k.name = n)
    (h : Lineage find name chain) :
    chain.IsChain fun k above => k.superclass = some above.name := by
  induction h with
  | root => exact .singleton _
  | link _ hparent habove ih =>
    obtain ⟨k, rest, rfl, hk⟩ := habove.exists_cons
    exact .cons_cons (by rw [hparent, hname _ k hk]) ih

theorem Lineage.exists_concat (h : Lineage find name chain) :
    ∃ below root, chain = below ++ [root] ∧ root.superclass = none := by
  induction h with
  | @root name k _ hroot => exact ⟨[], k, rfl, hroot⟩
  | @link name k _ _ _ _ _ ih =>
    obtain ⟨below, root, rfl, hroot⟩ := ih
    exact ⟨k :: below, root, rfl, hroot⟩

theorem Climb.lineage (h : Climb find name met next) (hrest : Lineage find next chain) :
    Lineage find name (met ++ chain) := by
  induction h generalizing chain with
  | start => exact hrest
  | step _ _ hk hparent ih =>
    rw [List.append_assoc]
    exact ih (.link hk hparent hrest)

theorem not_mem_of_nodup {above : List ClassMapping}
    (h : ((met ++ k :: above).map ClassMapping.name).Nodup) :
    k.name ∉ met.map ClassMapping.name := by
  rw [List.map_append, List.map_cons] at h
  exact fun hmem => (List.nodup_append.mp h).2.2 _ hmem _ List.mem_cons_self rfl

theorem Climb.ends_of_lineage (h : Climb find name met next) (hrest : Lineage find next chain)
    (hname : ∀ n k, find n = some k → k.name = n)
    (hnodup : ((met ++ chain).map ClassMapping.name).Nodup) :
    ∃ met' next', Climb find name met' next' ∧ Ends find met' next' (.ok (met ++ chain)) := by
  induction hrest generalizing met with
  | @root next k hk hroot =>
    have hnew := not_mem_of_nodup hnodup
    rw [hname next k hk] at hnew
    exact ⟨met, next, h, .root hnew hk hroot⟩
  | @link next k parent above hk hparent _ ih =>
    have hnew := not_mem_of_nodup hnodup
    rw [hname next k hk] at hnew
    rw [List.append_cons] at hnodup ⊢
    exact ih (h.step hnew hk hparent) hnodup

theorem lineage_iff_ends (hname : ∀ n k, find n = some k → k.name = n) :
    Lineage find name chain ↔
      ∃ met next, Climb find name met next ∧ Ends find met next (.ok chain) := by
  constructor
  · intro h
    exact Climb.start.ends_of_lineage h hname (h.nodup hname)
  · rintro ⟨met, next, hclimb, hends⟩
    cases hends with
    | root _ hk hroot => exact hclimb.lineage (.root hk hroot)

end Links

/-! ## Chains -/

variable {c : Catalog} {name next : String} {k : ClassMapping} {met chain : List ClassMapping}
  {r : Except MetadataFault (List ClassMapping)}

theorem name_of_class? (name : String) (k : ClassMapping) (h : c.class? name = some k) :
    k.name = name := by
  simpa using List.find?_some h

theorem length_le_of_nodup (hnodup : (met.map ClassMapping.name).Nodup)
    (hfound : ∀ k ∈ met, c.class? k.name = some k) : met.length ≤ c.classes.length := by
  have hsubset : met ⊆ c.classes := fun k hk => List.mem_of_find?_eq_some (hfound k hk)
  exact (hnodup.of_map.subperm hsubset).length_le

/-- A climb meets registered classes only, and none of them twice. -/
theorem climb_length_le (h : Climb c.class? name met next) : met.length ≤ c.classes.length := by
  obtain ⟨hnodup, hfound⟩ := h.nodup name_of_class?
  exact length_le_of_nodup hnodup hfound

/-- As many steps as there are classes are enough: a climb from a class goes on to its end. -/
theorem chainFrom_ends {steps : Nat} {seen : List String} (hclimb : Climb c.class? name met k.name)
    (hnew : k.name ∉ met.map ClassMapping.name) (hk : c.class? k.name = some k)
    (hseen : ∀ n, n ∈ seen ↔ n ∈ met.map ClassMapping.name)
    (hsteps : c.classes.length ≤ met.length + steps) :
    ∃ met' next, Climb c.class? name met' next ∧
      Ends c.class? met' next ((c.chainFrom steps seen k).map (met ++ ·)) := by
  induction steps generalizing met seen k with
  | zero =>
    -- all classes have been met, and there is one more
    obtain ⟨hnodup, hfound⟩ := hclimb.nodup name_of_class?
    have hlength : (k :: met).length ≤ c.classes.length :=
      length_le_of_nodup (List.nodup_cons.mpr ⟨hnew, hnodup⟩)
        (List.forall_mem_cons.mpr ⟨hk, hfound⟩)
    rw [List.length_cons] at hlength
    omega
  | succ steps ih =>
    unfold chainFrom
    cases hparent : k.superclass with
    | none => exact ⟨met, k.name, hclimb, .root hnew hk hparent⟩
    | some parent =>
      have hnext := hclimb.step hnew hk hparent
      have hseen' (n : String) : n ∈ k.name :: seen ↔ n ∈ (met ++ [k]).map ClassMapping.name := by
        simp [hseen, or_comm]
      dsimp only
      split
      · next hmet =>
        exact ⟨_, parent, hnext, .cycle ((hseen' parent).mp (List.contains_iff_mem.mp hmet))⟩
      · next hmet =>
        cases habove : c.class? parent with
        | none =>
          refine ⟨_, parent, hnext, ?_⟩
          rw [getClass, habove]
          exact .unknown habove
        | some above =>
          obtain rfl : above.name = parent := name_of_class? parent above habove
          obtain ⟨met', next, hclimb', hends⟩ := ih hnext
            (fun hmem => hmet (List.contains_iff_mem.mpr ((hseen' _).mpr hmem))) habove hseen'
            (by simp only [List.length_append, List.length_singleton]; omega)
          refine ⟨met', next, hclimb', ?_⟩
          rw [getClass, habove]
          cases hrest : c.chainFrom steps (k.name :: seen) above <;>
            simpa [hrest, Except.map, bind, Except.bind, pure, Except.pure] using hends

theorem ends_of_getClass {steps : Nat} (hk : c.getClass name = .ok k)
    (hsteps : c.classes.length ≤ steps) :
    ∃ met next, Climb c.class? name met next ∧ Ends c.class? met next (c.chainFrom steps [] k) := by
  obtain rfl : k.name = name := name_of_getClass hk
  have hfound : c.class? k.name = some k := find?_of_getClass hk
  have hseen (n : String) : n ∈ [] ↔ n ∈ ([] : List ClassMapping).map ClassMapping.name := Iff.rfl
  obtain ⟨met, next, hclimb, hends⟩ := chainFrom_ends Climb.start List.not_mem_nil hfound hseen
    (hsteps.trans_eq (Nat.zero_add steps).symm)
  refine ⟨met, next, hclimb, ?_⟩
  cases hrest : c.chainFrom steps [] k <;> simpa [hrest, Except.map] using hends

theorem chain_ends (c : Catalog) (name : String) :
    ∃ met next, Climb c.class? name met next ∧ Ends c.class? met next (c.chain name) := by
  cases hk : c.getClass name with
  | error e =>
    refine ⟨[], name, .start, ?_⟩
    rw [chain, hk]
    unfold getClass at hk
    split at hk
    · cases hk
    · next hnone =>
      cases hk
      exact .unknown hnone
  | ok k =>
    obtain ⟨met, next, hclimb, hends⟩ := ends_of_getClass hk le_rfl
    rw [chain, hk]
    exact ⟨met, next, hclimb, hends⟩

theorem chain_eq_iff : c.chain name = r ↔
    ∃ met next, Climb c.class? name met next ∧ Ends c.class? met next r := by
  obtain ⟨met, next, hclimb, hends⟩ := c.chain_ends name
  constructor
  · rintro rfl
    exact ⟨met, next, hclimb, hends⟩
  · rintro ⟨met', next', hclimb', hends'⟩
    exact hclimb.ends_unique name_of_class? hends hclimb' hends'

theorem chain_eq_ok_iff : c.chain name = .ok chain ↔ Lineage c.class? name chain := by
  rw [chain_eq_iff, lineage_iff_ends name_of_class?]

theorem chain_eq_error_iff {e : MetadataFault} : c.chain name = .error e ↔
    ∃ met next, Climb c.class? name met next ∧
      (c.class? next = none ∧ e = .unknownClass next ∨
        next ∈ met.map ClassMapping.name ∧ e = .inheritanceCycle next) := by
  rw [chain_eq_iff]
  refine exists₂_congr fun met next => and_congr_right fun _ => ?_
  constructor
  · intro hends
    cases hends with
    | unknown hnone => exact .inl ⟨hnone, rfl⟩
    | cycle hmet => exact .inr ⟨hmet, rfl⟩
  · rintro (⟨hnone, rfl⟩ | ⟨hmet, rfl⟩)
    · exact .unknown hnone
    · exact .cycle hmet

/-- More steps than there are classes make no difference. -/
theorem chainFrom_eq_chain {steps : Nat} (hk : c.getClass name = .ok k)
    (hsteps : c.classes.length ≤ steps) : c.chainFrom steps [] k = c.chain name :=
  (chain_eq_iff.mpr (ends_of_getClass hk hsteps)).symm

/-! ## Members -/

theorem member_of_chain_error {e : MetadataFault} (h : c.chain name = .error e) (number : Nat) :
    c.member name number = .error e := by
  rw [member, h]
  rfl

theorem member_of_chain (h : c.chain name = .ok chain) (number : Nat) :
    (∃ depth m, Declares chain number depth m ∧ c.member name number = .ok (depth, m)) ∨
      (∀ k ∈ chain, k.declared? number = none) ∧
        c.member name number = .error (.noMember name number) := by
  cases hmember : c.member name number with
  | ok found =>
    obtain ⟨chain', hchain', hdeclares⟩ := member_spec hmember
    cases h.symm.trans hchain'
    exact .inl ⟨_, _, hdeclares, rfl⟩
  | error e =>
    rw [member, h] at hmember
    dsimp only [bind, Except.bind] at hmember
    split at hmember
    · cases hmember
    · next hnone =>
      cases hmember
      rw [List.findSome?_eq_none_iff] at hnone
      refine .inr ⟨fun k hk => ?_, rfl⟩
      obtain ⟨depth, hdepth⟩ := List.mem_iff_getElem?.mp hk
      have hmem : (k, depth) ∈ chain.zipIdx := List.mem_zipIdx_iff_getElem?.mpr hdepth
      simpa using hnone _ hmem

/-! ## Registrations -/

def latest (ks : List ClassMapping) (name : String) : Option ClassMapping :=
  ks.reverse.find? (·.name == name)

theorem class?_add (c : Catalog) (k : ClassMapping) (name : String) :
    (c.add k).class? name = if k.name = name then some k else c.class? name := by
  unfold add class?
  rw [List.find?_append, List.find?_filter]
  simp only [Bool.decide_and, Bool.decide_eq_true]
  by_cases hname : k.name = name
  · subst hname
    have hnone : c.classes.find? (fun k' => k'.name != k.name && k'.name == k.name) = none := by
      simp [List.find?_eq_none]
    rw [hnone, if_pos rfl]
    simp
  · have hsame : (fun k' : ClassMapping => k'.name != k.name && k'.name == name) =
        fun k' => k'.name == name := by
      funext k'
      by_cases hk' : k'.name = name
      · simp [hk', Ne.symm hname]
      · simp [hk']
    rw [hsame, if_neg hname, List.find?_singleton, if_neg (by simpa using hname), Option.or_none]

theorem class?_ofClasses (ks : List ClassMapping) : (ofClasses ks).class? = latest ks := by
  funext name
  induction ks using List.reverseRecOn with
  | nil => rfl
  | append_singleton ks k ih =>
    rw [ofClasses, List.foldl_append, List.foldl_cons, List.foldl_nil, class?_add]
    rw [ofClasses] at ih
    rw [ih, latest, latest, List.reverse_append, List.reverse_singleton, List.singleton_append,
      List.find?_cons]
    by_cases hname : k.name = name
    · simp [hname]
    · rw [if_neg hname, beq_false_of_ne hname]

/-- How the chain and the members of a class depend on what names are registered for. -/
structure FollowsLinks (c : Catalog) (find : String → Option ClassMapping) (name : String) :
    Prop where
  chain_ok : ∀ chain, c.chain name = .ok chain ↔ Lineage find name chain
  chain_error : ∀ e, c.chain name = .error e ↔ ∃ met next, Climb find name met next ∧
    (find next = none ∧ e = .unknownClass next ∨
      next ∈ met.map ClassMapping.name ∧ e = .inheritanceCycle next)
  names_nodup : ∀ chain, c.chain name = .ok chain → (chain.map ClassMapping.name).Nodup
  starts : ∀ chain, c.chain name = .ok chain → ∃ k above, chain = k :: above ∧ k.name = name
  linked : ∀ chain, c.chain name = .ok chain →
    chain.IsChain fun k above => k.superclass = some above.name
  ends_with_root : ∀ chain, c.chain name = .ok chain →
    ∃ below root, chain = below ++ [root] ∧ root.superclass = none
  /-- No way up is longer than the number of registered classes. -/
  climb_length_le : ∀ met next, Climb find name met next → met.length ≤ c.classes.length
  /-- The bound on the steps has no part in the result. -/
  chainFrom_eq : ∀ k steps, find name = some k → c.classes.length ≤ steps →
    c.chainFrom steps [] k = c.chain name
  member_of_error : ∀ e, c.chain name = .error e → ∀ number, c.member name number = .error e
  /-- A member is the one of the first class of the chain that declares it. -/
  member_of_ok : ∀ chain, c.chain name = .ok chain → ∀ number,
    (∃ depth m, Declares chain number depth m ∧ c.member name number = .ok (depth, m)) ∨
      (∀ k ∈ chain, k.declared? number = none) ∧
        c.member name number = .error (.noMember name number)

theorem followsLinks (c : Catalog) (name : String) : c.FollowsLinks c.class? name where
  chain_ok _ := chain_eq_ok_iff
  chain_error _ := chain_eq_error_iff
  names_nodup _ := chain_nodup
  starts chain h := by
    obtain ⟨k, above, rfl, hk⟩ := (chain_eq_ok_iff.mp h).exists_cons
    exact ⟨k, above, rfl, name_of_class? name k hk⟩
  linked _ h := (chain_eq_ok_iff.mp h).isChain name_of_class?
  ends_with_root _ h := (chain_eq_ok_iff.mp h).exists_concat
  climb_length_le _ _ := Catalog.climb_length_le
  chainFrom_eq k steps hk := by
    have hget : c.getClass name = .ok k := by rw [getClass, hk]
    exact chainFrom_eq_chain hget
  member_of_error _ := member_of_chain_error
  member_of_ok _ := member_of_chain

/-- Whatever classes are registered, and however often, the chain of a name is the way up to the
root along the classes that were registered last, and there is none exactly if this way breaks off
or comes back to a class. -/
theorem ofClasses_followsLinks (ks : List ClassMapping) (name : String) :
    (ofClasses ks).FollowsLinks (latest ks) name := by
  rw [← class?_ofClasses]
  exact followsLinks _ name

def bareClass (name : String) (superclass : Option String) (number : Nat) : ClassMapping :=
  ⟨name, ⟨name, none, none, none, none⟩, superclass, false, none,
    [⟨number, "m", ["M"], "i64", .scalar, none⟩]⟩

/-- A class that is registered twice, one whose superclass is missing and two that are above each
other. -/
def pets : List ClassMapping :=
  [bareClass "Dog" (some "Ghost") 1, bareClass "Animal" none 0, bareClass "Dog" (some "Animal") 2,
    bareClass "Stray" (some "Owner") 3, bareClass "Chicken" (some "Egg") 4,
    bareClass "Egg" (some "Chicken") 5]

theorem ofClasses_followsLinks_pets :
    (ofClasses pets).chain "Dog" =
        .ok [bareClass "Dog" (some "Animal") 2, bareClass "Animal" none 0] ∧
      (ofClasses pets).member "Dog" 1 = .error (.noMember "Dog" 1) ∧
      (ofClasses pets).chain "Stray" = .error (.unknownClass "Owner") ∧
      (ofClasses pets).chain "Egg" = .error (.inheritanceCycle "Egg") := by
  have hdog : (ofClasses pets).chain "Dog" =
      .ok [bareClass "Dog" (some "Animal") 2, bareClass "Animal" none 0] :=
    ((ofClasses_followsLinks pets "Dog").chain_ok _).mpr
      (.link (by decide) rfl (.root (by decide) rfl))
  refine ⟨hdog, ?_, ?_, ?_⟩
  · rcases (ofClasses_followsLinks pets "Dog").member_of_ok _ hdog 1 with
      ⟨depth, m, ⟨⟨k, hk, hm⟩, -⟩, -⟩ | ⟨-, hmember⟩
    · -- the class that declared the member has been replaced
      have hnone : ∀ k ∈ [bareClass "Dog" (some "Animal") 2, bareClass "Animal" none 0],
          k.declared? 1 = none := by decide
      simp [hnone k (List.mem_of_getElem? hk)] at hm
    · exact hmember
  · exact ((ofClasses_followsLinks pets "Stray").chain_error _).mpr
      ⟨_, _, .step .start (by decide) rfl rfl, .inl ⟨by decide, rfl⟩⟩
  · exact ((ofClasses_followsLinks pets "Egg").chain_error _).mpr
      ⟨_, _, .step (.step .start (by decide) rfl rfl) (by decide) rfl rfl, .inr ⟨by decide, rfl⟩⟩

end ObjectSql.Catalog
