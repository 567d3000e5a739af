import PaymentRecovery.Python.JsonValues
import PaymentRecovery.Rules.Parsing

/-!
# Accepted proposals survive their text

A proposal that `parse_rule` accepts has a JSON text, and what is read back from
the text parses to the same rule: tuples come back as lists, and everything
else comes back as it was.
-/

namespace PaymentRecovery.Rules

open PaymentRecovery.Python PaymentRecovery.Lib

/-! ## What is read back -/

/-- `json.loads(json.dumps(value)) == read`. -/
def Reads (value read : PyVal) : Prop :=
  ∃ json, value.toJson = .ok json ∧ json.toPyVal = read

/-- A list is read back value by value. -/
theorem reads_list {items reads : List PyVal} (h : List.Forall₂ Reads items reads) :
    ∃ jsons, listToJson items = .ok jsons ∧ listToPyVal jsons = reads := by
  induction h with
  | nil => exact ⟨[], rfl, rfl⟩
  | cons hfirst _ ih =>
    obtain ⟨json, hjson, hread⟩ := hfirst
    obtain ⟨jsons, hjsons, hreads⟩ := ih
    refine ⟨json :: jsons, ?_, ?_⟩
    · rw [listToJson, hjson, hjsons]
      rfl
    · rw [listToPyVal, hread, hreads]

theorem Reads.list {items reads : List PyVal} (h : List.Forall₂ Reads items reads) :
    Reads (.list items) (.list reads) := by
  obtain ⟨jsons, hjsons, hreads⟩ := reads_list h
  refine ⟨.arr jsons, ?_, ?_⟩
  · rw [PyVal.toJson, hjsons]
    rfl
  · rw [Json.toPyVal, hreads]

theorem Reads.tuple {items reads : List PyVal} (h : List.Forall₂ Reads items reads) :
    Reads (.tuple items) (.list reads) := by
  obtain ⟨jsons, hjsons, hreads⟩ := reads_list h
  refine ⟨.arr jsons, ?_, ?_⟩
  · rw [PyVal.toJson, hjsons]
    rfl
  · rw [Json.toPyVal, hreads]

/-- The same key, and the value read back. -/
def ReadsItem (item read : PyKey × PyVal) : Prop :=
  read.1 = item.1 ∧ (∃ s, item.1 = .str s) ∧ Reads item.2 read.2

theorem itemSet_new {items : List (PyKey × PyVal)} {key : String} {value : PyVal}
    (h : PyKey.str key ∉ items.map Prod.fst) :
    itemSet items key value = items ++ [(.str key, value)] := by
  induction items with
  | nil => rfl
  | cons item rest ih =>
    obtain ⟨k, v⟩ := item
    rw [List.map_cons, List.mem_cons, not_or] at h
    rw [itemSet, if_neg (Ne.symm h.1), ih h.2]
    rfl

/-- A mapping with distinct keys is read back entry by entry. -/
theorem reads_items {items reads : List (PyKey × PyVal)} (h : List.Forall₂ ReadsItem items reads)
    (hnodup : (items.map Prod.fst).Nodup) :
    ∃ members, itemsToJson items = .ok members ∧ ∀ before : List (PyKey × PyVal),
      (∀ item ∈ items, item.1 ∉ before.map Prod.fst) →
        membersToPyVal members before = before ++ reads := by
  induction h with
  | nil => exact ⟨[], rfl, fun before _ => by rw [membersToPyVal, List.append_nil]⟩
  | @cons item read rest reads' hfirst _ ih =>
    obtain ⟨key, value⟩ := item
    obtain ⟨readKey, readValue⟩ := read
    obtain ⟨hkey, ⟨s, hs⟩, json, hjson, hread⟩ := hfirst
    dsimp only at hkey hs hjson hread
    subst hs hkey hread
    rw [List.map_cons, List.nodup_cons] at hnodup
    obtain ⟨members, hmembers, hrest⟩ := ih hnodup.2
    refine ⟨(s, json) :: members, ?_, fun before hbefore => ?_⟩
    · rw [itemsToJson, hjson, hmembers]
      rfl
    · rw [membersToPyVal, itemSet_new (hbefore _ List.mem_cons_self), hrest, List.append_assoc]
      · rfl
      · -- the first key is set before the others come
        intro other hother hmem
        rw [List.map_append, List.mem_append] at hmem
        rcases hmem with hmem | hmem
        · exact hbefore other (List.mem_cons_of_mem _ hother) hmem
        · rw [List.map_singleton, List.mem_singleton] at hmem
          exact hnodup.1 (hmem ▸ List.mem_map_of_mem hother)

theorem Reads.dict {items reads : List (PyKey × PyVal)} (h : List.Forall₂ ReadsItem items reads)
    (hnodup : (items.map Prod.fst).Nodup) : Reads (.dict items) (.dict reads) := by
  obtain ⟨members, hmembers, hreads⟩ := reads_items h hnodup
  refine ⟨.obj members, ?_, ?_⟩
  · rw [PyVal.toJson, hmembers]
    rfl
  · rw [Json.toPyVal, hreads [] fun _ _ => List.not_mem_nil, List.nil_append]

mutual

/-- A JSON value is read back as it was. -/
theorem isJson_reads : ∀ {value : PyVal}, IsJson value → Reads value value
  | .none, _ => ⟨.null, rfl, rfl⟩
  | .bool b, _ => ⟨.bool b, rfl, rfl⟩
  | .int i, _ => ⟨.int i, rfl, rfl⟩
  | .float x, _ => ⟨.float x, rfl, rfl⟩
  | .str s, _ => ⟨.str s, rfl, rfl⟩
  | .list _, h => .list (isJsonAll_reads h)
  | .dict _, h => .dict (isJsonItems_reads h.2) h.1
  | .tuple _, h => h.elim
  | .object _ _, h => h.elim

theorem isJsonAll_reads : ∀ {items : List PyVal}, IsJsonAll items → List.Forall₂ Reads items items
  | [], _ => .nil
  | _ :: _, h => .cons (isJson_reads h.1) (isJsonAll_reads h.2)

theorem isJsonItems_reads : ∀ {items : List (PyKey × PyVal)}, IsJsonItems items →
    List.Forall₂ ReadsItem items items
  | [], _ => .nil
  | (_, _) :: _, h => .cons ⟨rfl, h.1, isJson_reads h.2.1⟩ (isJsonItems_reads h.2.2)

end

/-- So it survives its text. -/
theorem isJson_preserved {value : PyVal} (h : IsJson value) : JsonPreserved value := by
  obtain ⟨json, hjson, hread⟩ := isJson_reads h
  refine ⟨.doc json, ?_, congrArg Except.ok hread⟩
  unfold jsonDumps
  rw [hjson]
  rfl

/-! ## Entries of a mapping that was read back -/

theorem keys_of_reads {items reads : List (PyKey × PyVal)} (h : List.Forall₂ ReadsItem items reads) :
    reads.map Prod.fst = items.map Prod.fst := by
  induction h with
  | nil => rfl
  | cons hfirst _ ih => rw [List.map_cons, List.map_cons, hfirst.1, ih]

theorem hasExactKeys_of_reads {items reads : List (PyKey × PyVal)}
    (h : List.Forall₂ ReadsItem items reads) (names : List String) :
    hasExactKeys reads names = hasExactKeys items names := by
  unfold hasExactKeys
  rw [keys_of_reads h]

theorem itemGet?_of_reads {items reads : List (PyKey × PyVal)}
    (h : List.Forall₂ ReadsItem items reads) (key : String) :
    (itemGet? items key = none ∧ itemGet? reads key = none) ∨
    ∃ value read, itemGet? items key = some value ∧ itemGet? reads key = some read ∧
      Reads value read := by
  induction h with
  | nil => exact .inl ⟨rfl, rfl⟩
  | @cons item read rest reads' hfirst _ ih =>
    obtain ⟨k, v⟩ := item
    obtain ⟨k', v'⟩ := read
    obtain ⟨hkey, _, hread⟩ := hfirst
    dsimp only at hkey hread
    subst hkey
    unfold itemGet?
    by_cases hk : k' = .str key
    · rw [if_pos hk, if_pos hk]
      exact .inr ⟨v, v', rfl, rfl, hread⟩
    · rw [if_neg hk, if_neg hk]
      exact ih

theorem itemGet?_of_mem {items : List (PyKey × PyVal)} (hnodup : (items.map Prod.fst).Nodup)
    {key : String} {value : PyVal} (h : (PyKey.str key, value) ∈ items) :
    itemGet? items key = some value := by
  induction items with
  | nil => cases h
  | cons item rest ih =>
    obtain ⟨k, v⟩ := item
    rw [List.map_cons, List.nodup_cons] at hnodup
    unfold itemGet?
    rcases List.mem_cons.mp h with hfirst | hmem
    · injection hfirst with hk hv
      rw [if_pos hk.symm, hv]
    · have hne : k ≠ .str key := fun hk => hnodup.1 (List.mem_map.mpr ⟨_, hmem, hk.symm⟩)
      rw [if_neg hne]
      exact ih hnodup.2 hmem

theorem member_of_reads {items reads : List (PyKey × PyVal)}
    (h : List.Forall₂ ReadsItem items reads) (name : String) :
    Reads (member items name) (member reads name) := by
  unfold member
  rcases itemGet?_of_reads h name with ⟨hnone, hnone'⟩ | ⟨value, read, hvalue, hread, hreads⟩
  · rw [hnone, hnone']
    exact ⟨.null, rfl, rfl⟩
  · rw [hvalue, hread]
    exact hreads

theorem Reads.unique {value read read' : PyVal} (h : Reads value read) (h' : Reads value read') :
    read = read' := by
  obtain ⟨json, hjson, rfl⟩ := h
  obtain ⟨json', hjson', rfl⟩ := h'
  rw [hjson] at hjson'
  injection hjson' with hsame
  rw [hsame]

/-- What can be read back one by one can be read back together. -/
theorem forall₂_of_forall {α β : Type} {R : α → β → Prop} {as : List α}
    (h : ∀ a ∈ as, ∃ b, R a b) : ∃ bs, List.Forall₂ R as bs := by
  induction as with
  | nil => exact ⟨[], .nil⟩
  | cons a rest ih =>
    obtain ⟨b, hb⟩ := h a List.mem_cons_self
    obtain ⟨bs, hbs⟩ := ih fun a' ha' => h a' (List.mem_cons_of_mem _ ha')
    exact ⟨b :: bs, .cons hb hbs⟩

theorem forall₂_mem {α β : Type} {R : α → β → Prop} {as : List α} {bs : List β}
    (h : List.Forall₂ R as bs) {a : α} (ha : a ∈ as) : ∃ b ∈ bs, R a b := by
  induction h with
  | nil => cases ha
  | cons hfirst _ ih =>
    rcases List.mem_cons.mp ha with rfl | hrest
    · exact ⟨_, List.mem_cons_self, hfirst⟩
    · obtain ⟨b, hb, hab⟩ := ih hrest
      exact ⟨b, List.mem_cons_of_mem _ hb, hab⟩

/-- A mapping whose named members can be read back, and that has no others. -/
theorem reads_of_members {items : List (PyKey × PyVal)} {names : List String}
    (hkeys : hasExactKeys items names = true) (hnodup : (items.map Prod.fst).Nodup)
    (h : ∀ name ∈ names, ∃ read, Reads (member items name) read) :
    ∃ reads, List.Forall₂ ReadsItem items reads := by
  refine forall₂_of_forall fun item hitem => ?_
  obtain ⟨key, value⟩ := item
  unfold hasExactKeys at hkeys
  rw [Bool.and_eq_true, List.all_eq_true] at hkeys
  have hin := of_decide_eq_true (hkeys.1 key (List.mem_map_of_mem hitem))
  obtain ⟨name, hname, rfl⟩ := List.mem_map.mp hin
  obtain ⟨read, hread⟩ := h name hname
  unfold member at hread
  rw [itemGet?_of_mem hnodup hitem] at hread
  exact ⟨(.str name, read), rfl, ⟨name, rfl⟩, hread⟩

/-! ## Proposals -/

mutual

/-- Every mapping inside has its keys once, as every `dict` has. -/
def distinctKeys : PyVal → Prop
  | .list items => distinctKeysAll items
  | .tuple items => distinctKeysAll items
  | .dict items => (items.map Prod.fst).Nodup ∧ distinctKeysItems items
  | _ => True

def distinctKeysAll : List PyVal → Prop
  | [] => True
  | value :: rest => distinctKeys value ∧ distinctKeysAll rest

def distinctKeysItems : List (PyKey × PyVal) → Prop
  | [] => True
  | (_, value) :: rest => distinctKeys value ∧ distinctKeysItems rest

end

theorem distinctKeys_member {items : List (PyKey × PyVal)} (h : distinctKeysItems items)
    (name : String) : distinctKeys (member items name) := by
  unfold member
  induction items with
  | nil => trivial
  | cons item rest ih =>
    obtain ⟨k, v⟩ := item
    unfold itemGet?
    by_cases hk : k = .str name
    · rw [if_pos hk]
      exact h.1
    · rw [if_neg hk]
      exact ih h.2

/-- A scalar literal is read back as it was. -/
theorem scalar_reads {value result : PyVal} {spec : FieldSpec} (h : scalar value spec = .ok result) :
    result = value ∧ Reads value value := by
  unfold scalar at h
  split at h
  · injection h with h
    exact ⟨h.symm, .int _, rfl, rfl⟩
  · injection h with h
    exact ⟨h.symm, .float _, rfl, rfl⟩
  · cases h
  · injection h with h
    exact ⟨h.symm, .str _, rfl, rfl⟩
  · cases h
  · injection h with h
    exact ⟨h.symm, .bool _, rfl, rfl⟩
  · cases h
  · split at h
    · injection h with h
      exact ⟨h.symm, .str _, rfl, rfl⟩
    · cases h
  · cases h

theorem mapM_scalar_reads {items results : List PyVal} {spec : FieldSpec}
    (h : items.mapM (fun item => scalar item spec) = .ok results) :
    List.Forall₂ Reads items items := by
  rw [mapM_ok_iff] at h
  induction h with
  | nil => exact .nil
  | cons hfirst _ ih => exact .cons (scalar_reads hfirst).2 ih

/-- An operand is read back as one that parses alike. -/
theorem parseLiteral_reads {value result : PyVal} {spec : FieldSpec} {op : Operator}
    {schema : Schema} (h : parseLiteral value spec op schema = .ok result) :
    ∃ read, Reads value read ∧ parseLiteral read spec op schema = .ok result := by
  unfold parseLiteral at h ⊢
  by_cases hop : op = .isIn
  · rw [if_pos hop] at h
    simp only [if_pos hop]
    cases value with
    | list items =>
      simp only [sequence?] at h
      refine ⟨.list items, ?_, h⟩
      split at h
      · obtain ⟨results, hresults, _⟩ := bind_ok h
        exact Reads.list (mapM_scalar_reads hresults)
      · cases h
    | tuple items =>
      simp only [sequence?] at h
      refine ⟨.list items, ?_, h⟩
      split at h
      · obtain ⟨results, hresults, _⟩ := bind_ok h
        exact Reads.tuple (mapM_scalar_reads hresults)
      · cases h
    | none => cases h
    | bool _ => cases h
    | int _ => cases h
    | float _ => cases h
    | str _ => cases h
    | dict _ => cases h
    | object _ _ => cases h
  · rw [if_neg hop] at h
    simp only [if_neg hop]
    exact ⟨value, (scalar_reads h).2, h⟩

theorem reads_str (s : String) : Reads (.str s) (.str s) := ⟨.str s, rfl, rfl⟩

theorem parseOperator_reads {raw : PyVal} {type : FieldType} {op : Operator}
    (h : parseOperator raw type = .ok op) : Reads raw raw := by
  unfold parseOperator at h
  split at h
  · exact reads_str _
  · cases h

theorem parsePredicate_reads {node : PyVal} {schema : Schema} {predicate : Predicate}
    (hdistinct : distinctKeys node) (h : parsePredicate node schema = .ok predicate) :
    ∃ read, Reads node read ∧ parsePredicate read schema = .ok predicate := by
  obtain ⟨items, spec, rfl, hparse⟩ := parsePredicate_ok_iff.mp h
  have hfield : Reads (member items "field") (.str predicate.field) := by
    rw [hparse.field]
    exact reads_str _
  have hop := parseOperator_reads hparse.op
  obtain ⟨literal, hliteral, hparsed⟩ := parseLiteral_reads hparse.value
  obtain ⟨reads, hreads⟩ := reads_of_members hparse.keys hdistinct.1 (by
    intro name hname
    simp only [List.mem_cons, List.not_mem_nil, or_false] at hname
    rcases hname with rfl | rfl | rfl
    · exact ⟨_, hfield⟩
    · exact ⟨_, hop⟩
    · exact ⟨_, hliteral⟩)
  refine ⟨.dict reads, .dict hreads hdistinct.1,
    parsePredicate_ok_iff.mpr ⟨reads, spec, rfl, ?_, ?_, hparse.known, ?_, ?_⟩⟩
  -- the three members parse as they did
  · rw [hasExactKeys_of_reads hreads, hparse.keys]
  · exact (member_of_reads hreads "field").unique hfield
  · rw [(member_of_reads hreads "op").unique hop, hparse.op]
  · rw [(member_of_reads hreads "value").unique hliteral, hparsed]

/-- What parses item by item is read back as what parses alike. -/
theorem mapM_parsePredicate_reads {nodes : List PyVal} {schema : Schema}
    {predicates : List Predicate} (hdistinct : distinctKeysAll nodes)
    (h : nodes.mapM (fun node => parsePredicate node schema) = .ok predicates) :
    ∃ reads, List.Forall₂ Reads nodes reads ∧
      reads.mapM (fun node => parsePredicate node schema) = .ok predicates := by
  induction nodes generalizing predicates with
  | nil => exact ⟨[], .nil, h⟩
  | cons node rest ih =>
    rw [List.mapM_cons] at h
    obtain ⟨first, hfirst, h⟩ := bind_ok h
    obtain ⟨others, hothers, h⟩ := bind_ok h
    obtain ⟨read, hread, hparsed⟩ := parsePredicate_reads hdistinct.1 hfirst
    obtain ⟨reads, hreads, hall⟩ := ih hdistinct.2 hothers
    refine ⟨read :: reads, .cons hread hreads, ?_⟩
    rw [List.mapM_cons, hparsed, hall]
    exact h

/-- A tuple of predicates comes back as a list of as many. -/
theorem sequence?_reads {value : PyVal} {schema : Schema} {nodes : List PyVal}
    {predicates : List Predicate} (hdistinct : distinctKeys value)
    (hnodes : sequence? value = some nodes)
    (h : nodes.mapM (fun node => parsePredicate node schema) = .ok predicates) :
    ∃ reads, Reads value (.list reads) ∧ reads.length = nodes.length ∧
      reads.mapM (fun node => parsePredicate node schema) = .ok predicates := by
  cases value with
  | list items =>
    injection hnodes with hnodes
    subst hnodes
    obtain ⟨reads, hreads, hparsed⟩ := mapM_parsePredicate_reads hdistinct h
    exact ⟨reads, .list hreads, hreads.length_eq.symm, hparsed⟩
  | tuple items =>
    injection hnodes with hnodes
    subst hnodes
    obtain ⟨reads, hreads, hparsed⟩ := mapM_parsePredicate_reads hdistinct h
    exact ⟨reads, .tuple hreads, hreads.length_eq.symm, hparsed⟩
  | none => cases hnodes
  | bool _ => cases hnodes
  | int _ => cases hnodes
  | float _ => cases hnodes
  | str _ => cases hnodes
  | dict _ => cases hnodes
  | object _ _ => cases hnodes

theorem parsePrecondition_reads {node : PyVal} {schema : Schema} {predicates : List Predicate}
    (hdistinct : distinctKeys node) (h : parsePrecondition node schema = .ok predicates) :
    ∃ read, Reads node read ∧ parsePrecondition read schema = .ok predicates := by
  obtain ⟨items, nodes, rfl, hparse⟩ := parsePrecondition_ok_iff.mp h
  obtain ⟨list, hlist, hlength, hparsed⟩ :=
    sequence?_reads (distinctKeys_member hdistinct.2 "all") hparse.all hparse.each
  obtain ⟨reads, hreads⟩ := reads_of_members hparse.keys hdistinct.1 (by
    intro name hname
    rw [List.mem_singleton.mp hname]
    exact ⟨_, hlist⟩)
  refine ⟨.dict reads, .dict hreads hdistinct.1,
    parsePrecondition_ok_iff.mpr ⟨reads, list, rfl, ?_, ?_, hlength ▸ hparse.bounds, hparsed⟩⟩
  · rw [hasExactKeys_of_reads hreads, hparse.keys]
  · rw [(member_of_reads hreads "all").unique hlist]
    rfl

/-- The parameters are scalars, and read back as they were. -/
theorem argumentsOf_reads {params : List (PyKey × PyVal)} {specs : List (String × ParamSpec)}
    {parsed : List (String × PyVal)} (h : argumentsOf params specs = .ok parsed) :
    ∀ name ∈ specs.map Prod.fst, Reads (member params name) (member params name) := by
  unfold argumentsOf at h
  rw [mapM_ok_iff] at h
  induction h with
  | nil => exact fun name hname => absurd hname List.not_mem_nil
  | cons hfirst _ ih =>
    obtain ⟨value, hvalue, _⟩ := bind_ok hfirst
    exact List.forall_mem_cons.mpr ⟨(scalar_reads hvalue).2, ih⟩

/-- The read-back members are the same where they read back as they were. -/
theorem argumentsOf_congr {params reads : List (PyKey × PyVal)} {specs : List (String × ParamSpec)}
    (h : ∀ name ∈ specs.map Prod.fst, member reads name = member params name) :
    argumentsOf reads specs = argumentsOf params specs := by
  unfold argumentsOf
  induction specs with
  | nil => rfl
  | cons spec rest ih =>
    rw [List.mapM_cons, List.mapM_cons, h spec.1 List.mem_cons_self,
      ih fun name hname => h name (List.mem_cons_of_mem _ hname)]

/-- The parameters of an action are read back as what parses alike. -/
theorem params_reads {params : List (PyKey × PyVal)} {specs : List (String × ParamSpec)}
    {parsed : List (String × PyVal)} (hdistinct : distinctKeys (.dict params))
    (hkeys : hasExactKeys params (specs.map Prod.fst) = true)
    (h : argumentsOf params specs = .ok parsed) :
    ∃ reads, Reads (.dict params) (.dict reads) ∧
      hasExactKeys reads (specs.map Prod.fst) = true ∧ argumentsOf reads specs = .ok parsed := by
  have hmembers := argumentsOf_reads h
  obtain ⟨reads, hreads⟩ := reads_of_members hkeys hdistinct.1 fun name hname =>
    ⟨_, hmembers name hname⟩
  refine ⟨reads, .dict hreads hdistinct.1, by rw [hasExactKeys_of_reads hreads, hkeys], ?_⟩
  rw [argumentsOf_congr fun name hname =>
    (member_of_reads hreads name).unique (hmembers name hname)]
  exact h

/-- The member that stands for the parameters, if there is one, is read back too. -/
theorem params_member_reads {items params reads : List (PyKey × PyVal)}
    (hgiven : (itemGet? items "params").getD (.dict []) = .dict params)
    (hreads : Reads (.dict params) (.dict reads)) : ∃ read, Reads (member items "params") read := by
  unfold member
  cases hget : itemGet? items "params" with
  | none => exact ⟨_, .null, rfl, rfl⟩
  | some value =>
    rw [hget, Option.getD_some] at hgiven
    exact ⟨_, hgiven ▸ hreads⟩

theorem parseAction_reads {node : PyVal} {schema : Schema} {action : RuleAction}
    (hdistinct : distinctKeys node) (h : parseAction node schema = .ok action) :
    ∃ read, Reads node read ∧ parseAction read schema = .ok action := by
  obtain ⟨items, spec, params, rfl, hparse⟩ := parseAction_ok_iff.mp h
  have hinside : distinctKeys (.dict params) := by
    rw [← hparse.given]
    cases hget : itemGet? items "params" with
    | none => exact ⟨List.nodup_nil, trivial⟩
    | some value =>
      have hmember := distinctKeys_member hdistinct.2 "params"
      unfold member at hmember
      rw [hget] at hmember
      exact hmember
  obtain ⟨params', hread, hdeclared, hparsed⟩ :=
    params_reads hinside hparse.declared hparse.arguments
  have hname : Reads (member items "name") (.str action.name) := by
    rw [hparse.name]
    exact reads_str _
  obtain ⟨reads, hreads⟩ : ∃ reads, List.Forall₂ ReadsItem items reads := by
    rcases hparse.keys with honly | hboth
    · exact reads_of_members honly hdistinct.1 fun key hkey => by
        rw [List.mem_singleton.mp hkey]
        exact ⟨_, hname⟩
    · refine reads_of_members hboth hdistinct.1 fun key hkey => ?_
      simp only [List.mem_cons, List.not_mem_nil, or_false] at hkey
      rcases hkey with rfl | rfl
      · exact ⟨_, hname⟩
      · exact params_member_reads hparse.given hread
  have hkeys : hasExactKeys reads ["name"] = true ∨ hasExactKeys reads ["name", "params"] = true := by
    rw [hasExactKeys_of_reads hreads, hasExactKeys_of_reads hreads]
    exact hparse.keys
  have hname' := (member_of_reads hreads "name").unique hname
  refine ⟨.dict reads, .dict hreads hdistinct.1, parseAction_ok_iff.mpr ?_⟩
  -- without parameters there is no such member, before and after
  rcases itemGet?_of_reads hreads "params" with ⟨hnone, hnone'⟩ |
    ⟨value, value', hvalue, hvalue', hreadValue⟩
  · have hgiven := hparse.given
    rw [hnone] at hgiven
    exact ⟨reads, spec, params, rfl, hkeys, hname', hparse.known, by rw [hnone', hgiven],
      hparse.declared, hparse.arguments⟩
  · have hgiven := hparse.given
    rw [hvalue, Option.getD_some] at hgiven
    rw [hgiven] at hreadValue
    refine ⟨reads, spec, params', rfl, hkeys, hname', hparse.known, ?_, hdeclared, hparsed⟩
    rw [hvalue', hreadValue.unique hread]
    rfl

/-- An accepted proposal is read back from its text as one that parses to the same rule. -/
theorem parseRule_reads {proposal : PyVal} {schema : Schema} {rule : Rule}
    (hdistinct : distinctKeys proposal) (h : parseRule proposal schema = .ok rule) :
    ∃ read, Reads proposal read ∧ parseRule read schema = .ok rule := by
  obtain ⟨items, rfl, hparse⟩ := parseRule_ok_iff.mp h
  obtain ⟨read, hread, hparsed⟩ :=
    parsePrecondition_reads (distinctKeys_member hdistinct.2 _) hparse.precondition
  obtain ⟨read', hread', hparsed'⟩ :=
    parseAction_reads (distinctKeys_member hdistinct.2 _) hparse.action
  obtain ⟨reads, hreads⟩ := reads_of_members hparse.keys hdistinct.1 (by
    intro name hname
    simp only [List.mem_cons, List.not_mem_nil, or_false] at hname
    rcases hname with rfl | rfl
    · exact ⟨_, hread⟩
    · exact ⟨_, hread'⟩)
  refine ⟨.dict reads, .dict hreads hdistinct.1, parseRule_ok_iff.mpr ⟨reads, rfl, ?_, ?_, ?_⟩⟩
  · rw [hasExactKeys_of_reads hreads, hparse.keys]
  · rw [(member_of_reads hreads "precondition").unique hread, hparsed]
  · rw [(member_of_reads hreads "action").unique hread', hparsed']

end PaymentRecovery.Rules
