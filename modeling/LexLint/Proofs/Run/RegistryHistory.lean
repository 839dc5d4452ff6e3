import LexLint.Proofs.Run.Independence
import Mathlib.Data.List.Induction

/-!
# Registries by their history

A registry that began empty is told by the calls it has taken (`Registry.follows_ofHistory`): which
names it has and in which order, which checker has a name, and which checkers are enabled. A call
that fails leaves no trace. The checkers that a run takes can then be read off the history
(`registry_follows_history`).
-/

namespace LexLint

/-- A change that a registry is asked for. -/
inductive RegistryCall where
  | register (checker : Checker)
  | unregister (name : String)
  | enable (name : String)
  | disable (name : String)

namespace RegistryCall

/-- What a call leaves under a name: a checker or nothing; no answer if it leaves what was there. -/
def placement? (name : String) : RegistryCall → Option (Option Checker)
  | .register checker => if checker.name = name then some (some checker) else none
  | .unregister n => if n = name then some none else none
  | .enable _ => none
  | .disable _ => none

/-- Whether a call disables or enables a name; no answer if it does neither. -/
def mark? (name : String) : RegistryCall → Option Bool
  | .register _ => none
  | .unregister _ => none
  | .enable n => if n = name then some false else none
  | .disable n => if n = name then some true else none

/-- The call registers a checker under a name. -/
def Registers (name : String) (call : RegistryCall) : Prop :=
  ∃ checker, call = .register checker ∧ checker.name = name

end RegistryCall

/-- The last answer to a question that not everything has an answer to. -/
def lastOf {α β : Type} (answer? : α → Option β) (xs : List α) : Option β :=
  (xs.filterMap answer?).getLast?

theorem lastOf_concat {α β : Type} (answer? : α → Option β) (xs : List α) (x : α) :
    lastOf answer? (xs ++ [x]) = (answer? x).or (lastOf answer? xs) := by
  rw [lastOf, List.filterMap_append, List.getLast?_append]
  cases h : answer? x <;> simp [h, lastOf]

/-- A name was registered at a point of the history, where it was not registered, and has not been
unregistered since. -/
structure RegisteredAt (calls : List RegistryCall) (name : String) (i : Nat) : Prop where
  registers : ∃ call, calls[i]? = some call ∧ call.Registers name
  kept : ∀ j, i < j → calls[j]? ≠ some (.unregister name)
  first : ∀ j < i, ∀ call : RegistryCall, calls[j]? = some call → call.Registers name →
    ∃ k, j < k ∧ k < i ∧ calls[k]? = some (.unregister name)

/-- Wherever a name was registered, it was unregistered later. -/
def Unregistered (calls : List RegistryCall) (name : String) : Prop :=
  ∀ (j : Nat) (call : RegistryCall), calls[j]? = some call → call.Registers name →
    ∃ k : Nat, j < k ∧ calls[k]? = some (.unregister name)

/-- One name has been registered for longer than another. -/
def RegisteredBefore (calls : List RegistryCall) (a b : String) : Prop :=
  ∃ i j, RegisteredAt calls a i ∧ RegisteredAt calls b j ∧ i < j

/-! ### Histories -/

theorem getElem?_concat_eq_some {α : Type} {xs : List α} {x y : α} {j : Nat} :
    (xs ++ [x])[j]? = some y ↔ xs[j]? = some y ∨ j = xs.length ∧ y = x := by
  rcases Nat.lt_trichotomy j xs.length with inside | rfl | beyond
  · rw [List.getElem?_append_left inside]
    simp [Nat.ne_of_lt inside]
  · rw [List.getElem?_concat_length, List.getElem?_eq_none (Nat.le_refl _)]
    simp [eq_comm]
  · have outside : (xs ++ [x]).length ≤ j := by
      rw [List.length_append, List.length_singleton]
      exact beyond
    rw [List.getElem?_eq_none outside, List.getElem?_eq_none (Nat.le_of_lt beyond)]
    simp [Nat.ne_of_gt beyond]

theorem lt_length_of_getElem? {α : Type} {xs : List α} {x : α} {j : Nat} (h : xs[j]? = some x) :
    j < xs.length :=
  (List.getElem?_eq_some_iff.mp h).1

section
variable {calls : List RegistryCall} {call : RegistryCall} {name a b : String} {i j : Nat}

theorem RegisteredAt.lt_length (h : RegisteredAt calls name i) : i < calls.length := by
  obtain ⟨call, found, -⟩ := h.registers
  exact lt_length_of_getElem? found

theorem RegisteredAt.not_lt (h : RegisteredAt calls name i) (h' : RegisteredAt calls name j) :
    ¬ i < j := by
  intro lt
  obtain ⟨call, found, registers⟩ := h.registers
  obtain ⟨k, later, -, unregistered⟩ := h'.first i lt call found registers
  exact h.kept k later unregistered

theorem RegisteredBefore.ne (h : RegisteredBefore calls a b) : a ≠ b := by
  rintro rfl
  obtain ⟨i, j, first, second, lt⟩ := h
  exact first.not_lt second lt

theorem RegisteredAt.not_unregistered (h : RegisteredAt calls name i) :
    ¬ Unregistered calls name := by
  intro unregistered
  obtain ⟨call, found, registers⟩ := h.registers
  obtain ⟨k, later, gone⟩ := unregistered i call found registers
  exact h.kept k later gone

/-- Other calls leave a name where it is. -/
theorem RegisteredAt.concat (h : RegisteredAt calls name i) (other : call ≠ .unregister name) :
    RegisteredAt (calls ++ [call]) name i := by
  have inside := h.lt_length
  constructor
  case registers =>
    obtain ⟨c, found, registers⟩ := h.registers
    exact ⟨c, getElem?_concat_eq_some.mpr (.inl found), registers⟩
  case kept =>
    intro j later found
    rcases getElem?_concat_eq_some.mp found with before | ⟨-, same⟩
    · exact h.kept j later before
    · exact other same.symm
  case first =>
    intro j lt c found registers
    rcases getElem?_concat_eq_some.mp found with before | ⟨last, -⟩
    · obtain ⟨k, later, earlier, gone⟩ := h.first j lt c before registers
      exact ⟨k, later, earlier, getElem?_concat_eq_some.mpr (.inl gone)⟩
    · omega

theorem RegisteredBefore.concat (h : RegisteredBefore calls a b) (keepsFirst : call ≠ .unregister a)
    (keepsSecond : call ≠ .unregister b) : RegisteredBefore (calls ++ [call]) a b := by
  obtain ⟨i, j, first, second, lt⟩ := h
  exact ⟨i, j, first.concat keepsFirst, second.concat keepsSecond, lt⟩

theorem Unregistered.concat (h : Unregistered calls name) (other : ¬ call.Registers name) :
    Unregistered (calls ++ [call]) name := by
  intro j c found registers
  rcases getElem?_concat_eq_some.mp found with before | ⟨-, rfl⟩
  · obtain ⟨k, later, gone⟩ := h j c before registers
    exact ⟨k, later, getElem?_concat_eq_some.mpr (.inl gone)⟩
  · exact absurd registers other

theorem unregistered_concat (calls : List RegistryCall) (name : String) :
    Unregistered (calls ++ [.unregister name]) name := by
  intro j c found registers
  rcases getElem?_concat_eq_some.mp found with before | ⟨-, rfl⟩
  · exact ⟨calls.length, lt_length_of_getElem? before, List.getElem?_concat_length⟩
  · obtain ⟨checker, same, -⟩ := registers
    cases same

/-- A name that is not registered gets the last place. -/
theorem Unregistered.registeredAt {checker : Checker} (h : Unregistered calls checker.name) :
    RegisteredAt (calls ++ [.register checker]) checker.name calls.length := by
  constructor
  case registers => exact ⟨_, List.getElem?_concat_length, checker, rfl, rfl⟩
  case kept =>
    intro j later found
    have := lt_length_of_getElem? found
    rw [List.length_append, List.length_singleton] at this
    omega
  case first =>
    intro j lt c found registers
    rcases getElem?_concat_eq_some.mp found with before | ⟨last, -⟩
    · obtain ⟨k, later, gone⟩ := h j c before registers
      exact ⟨k, later, lt_length_of_getElem? gone, getElem?_concat_eq_some.mpr (.inl gone)⟩
    · omega

end

namespace Registry

/-- The registry after a call, or why the call fails. -/
def answer (r : Registry) : RegistryCall → Except ConfigError Registry
  | .register checker => .ok (r.register checker)
  | .unregister name => .ok (r.unregister name)
  | .enable name => r.enable name
  | .disable name => r.disable name

/-- The registry after a call. One that fails changes nothing. -/
def after (r : Registry) (call : RegistryCall) : Registry :=
  match r.answer call with
  | .ok next => next
  | .error _ => r

/-- The registry after calls, empty before them. -/
def ofHistory (calls : List RegistryCall) : Registry := calls.foldl after {}

/-- The calls that do not fail. -/
def accepted (r : Registry) : List RegistryCall → List RegistryCall
  | [] => []
  | call :: rest =>
    match r.answer call with
    | .ok next => call :: accepted next rest
    | .error _ => accepted r rest

theorem ofHistory_concat (calls : List RegistryCall) (call : RegistryCall) :
    ofHistory (calls ++ [call]) = (ofHistory calls).after call :=
  List.foldl_append

theorem accepted_concat (r : Registry) (calls : List RegistryCall) (call : RegistryCall) :
    accepted r (calls ++ [call]) = accepted r calls ++
      (match (calls.foldl after r).answer call with
      | .ok _ => [call]
      | .error _ => []) := by
  induction calls generalizing r with
  | nil =>
    simp only [List.nil_append, accepted, List.foldl_nil]
  | cons c rest ih =>
    simp only [List.cons_append, accepted, List.foldl_cons, after]
    split
    · rw [ih, List.cons_append]
    · exact ih r

variable {r next : Registry} {name : String}

/-! ### Checkers by their names -/

theorem find?_put (checker : Checker) (checkers : List Checker) (name : String) :
    (put checker checkers).find? (·.name == name) =
      if checker.name = name then some checker else checkers.find? (·.name == name) := by
  induction checkers with
  | nil => by_cases same : checker.name = name <;> simp [put, same]
  | cons c rest ih =>
    rw [put]
    by_cases taken : c.name = checker.name
    · by_cases same : checker.name = name <;> simp [taken, same]
    · rw [if_neg taken]
      by_cases here : c.name = name
      · simp [here, show checker.name ≠ name from fun h => taken (here.trans h.symm)]
      · simpa [here] using ih

theorem map_name_put (checker : Checker) (checkers : List Checker) :
    (put checker checkers).map (·.name) =
      if checker.name ∈ checkers.map (·.name) then checkers.map (·.name)
      else checkers.map (·.name) ++ [checker.name] := by
  induction checkers with
  | nil => rfl
  | cons c rest ih =>
    rw [put]
    by_cases taken : c.name = checker.name
    · simp [taken]
    · rw [if_neg taken, List.map_cons, ih]
      simp only [List.map_cons, List.mem_cons, Ne.symm taken, false_or]
      split <;> rfl

theorem mem_names_iff : name ∈ r.names ↔ (r.get? name).isSome = true := by
  rw [names, get?, List.find?_isSome, List.mem_map]
  simp

theorem checkers_enable (h : r.enable name = .ok next) : next.checkers = r.checkers := by
  unfold enable at h
  split at h
  · rw [← Except.ok.inj h]
  · cases h

theorem checkers_disable (h : r.disable name = .ok next) : next.checkers = r.checkers := by
  unfold disable at h
  split at h
  · rw [← Except.ok.inj h]
  · cases h

theorem checkers_after (r : Registry) (call : RegistryCall) : (r.after call).checkers =
    match call with
    | .register checker => put checker r.checkers
    | .unregister name => r.checkers.filter (·.name != name)
    | .enable _ => r.checkers
    | .disable _ => r.checkers := by
  cases call with
  | register checker => rfl
  | unregister name => rfl
  | enable name =>
    simp only [after, answer]
    split
    · exact checkers_enable ‹_›
    · rfl
  | disable name =>
    simp only [after, answer]
    split
    · exact checkers_disable ‹_›
    · rfl

theorem get?_after (r : Registry) (call : RegistryCall) (name : String) :
    (r.after call).get? name = (call.placement? name).getD (r.get? name) := by
  rw [get?, checkers_after, get?]
  cases call with
  | register checker =>
    simp only [find?_put, RegistryCall.placement?]
    split <;> rfl
  | unregister n =>
    simp only [List.find?_filter, RegistryCall.placement?]
    by_cases same : n = name
    · subst same
      simp
    · rw [if_neg same, Option.getD_none]
      congr 1
      funext c
      by_cases here : c.name = name <;> simp [here, Ne.symm same]
  | enable n => rfl
  | disable n => rfl

theorem get?_ofHistory (calls : List RegistryCall) (name : String) :
    (ofHistory calls).get? name = (lastOf (·.placement? name) calls).join := by
  induction calls using List.reverseRecOn with
  | nil => rfl
  | append_singleton calls call ih =>
    rw [ofHistory_concat, get?_after, lastOf_concat, ih]
    cases call.placement? name <;> rfl

/-! ### The order of names -/

theorem names_after (r : Registry) (call : RegistryCall) : (r.after call).names =
    match call with
    | .register checker =>
      if checker.name ∈ r.names then r.names else r.names ++ [checker.name]
    | .unregister name => r.names.filter (· != name)
    | .enable _ => r.names
    | .disable _ => r.names := by
  rw [names, checkers_after]
  cases call with
  | register checker => exact map_name_put checker r.checkers
  | unregister name =>
    show (r.checkers.filter (·.name != name)).map (·.name) = (r.checkers.map (·.name)).filter _
    rw [List.filter_map]
    rfl
  | enable name => rfl
  | disable name => rfl

/-- Names stand in the order in which they were registered, and those that are not among them were
unregistered. -/
structure Lists (names : List String) (calls : List RegistryCall) : Prop where
  registered : ∀ name ∈ names, ∃ i, RegisteredAt calls name i
  unregistered : ∀ name, name ∉ names → Unregistered calls name
  ordered : names.Pairwise (RegisteredBefore calls)

/-- Names that a call keeps stay in order. -/
theorem Lists.concat {names kept : List String} {calls : List RegistryCall} {call : RegistryCall}
    (h : Lists names calls) (sub : kept.Sublist names)
    (keeps : ∀ name ∈ kept, call ≠ .unregister name)
    (others : ∀ name, name ∉ kept → Unregistered (calls ++ [call]) name) :
    Lists kept (calls ++ [call]) := by
  constructor
  case registered =>
    intro name member
    obtain ⟨i, registered⟩ := h.registered name (sub.subset member)
    exact ⟨i, registered.concat (keeps name member)⟩
  case unregistered => exact others
  case ordered =>
    refine (h.ordered.sublist sub).imp_of_mem ?_
    intro a b inFirst inSecond before
    exact before.concat (keeps a inFirst) (keeps b inSecond)

/-- A new name comes last. -/
theorem Lists.register_new {names : List String} {calls : List RegistryCall} {checker : Checker}
    (h : Lists names calls) (new : checker.name ∉ names) :
    Lists (names ++ [checker.name]) (calls ++ [.register checker]) := by
  have last := (h.unregistered checker.name new).registeredAt
  constructor
  case registered =>
    intro name member
    rcases List.mem_append.mp member with known | added
    · obtain ⟨i, registered⟩ := h.registered name known
      exact ⟨i, registered.concat (by simp)⟩
    · obtain rfl := List.mem_singleton.mp added
      exact ⟨_, last⟩
  case unregistered =>
    intro name absent
    simp only [List.mem_append, List.mem_singleton, not_or] at absent
    refine (h.unregistered name absent.1).concat ?_
    rintro ⟨c, same, named⟩
    cases same
    exact absent.2 named.symm
  case ordered =>
    rw [List.pairwise_append]
    refine ⟨h.ordered.imp fun before => before.concat (by simp) (by simp),
      List.pairwise_singleton _ _, ?_⟩
    intro name known other added
    obtain rfl := List.mem_singleton.mp added
    obtain ⟨i, registered⟩ := h.registered name known
    exact ⟨i, _, registered.concat (by simp), last, registered.lt_length⟩

/-- Names stand in the order in which they were registered, whatever the calls. -/
theorem lists_ofHistory (calls : List RegistryCall) : Lists (ofHistory calls).names calls := by
  induction calls using List.reverseRecOn with
  | nil =>
    refine ⟨fun name none => absurd none List.not_mem_nil, fun name _ j call found => ?_, .nil⟩
    cases found
  | append_singleton calls call ih =>
    -- Only a registration can bring a name back.
    have others (other : ∀ checker, call ≠ .register checker) :
        ∀ name, name ∉ (ofHistory calls).names → Unregistered (calls ++ [call]) name := by
      intro name absent
      refine (ih.unregistered name absent).concat ?_
      rintro ⟨checker, same, -⟩
      exact other checker same
    rw [ofHistory_concat, names_after]
    cases call with
    | register checker =>
      simp only
      split
      · rename_i known
        refine ih.concat (List.Sublist.refl _) (by simp) fun name absent => ?_
        refine (ih.unregistered name absent).concat ?_
        rintro ⟨c, same, named⟩
        cases same
        exact absent (named ▸ known)
      · exact ih.register_new ‹_›
    | unregister n =>
      refine ih.concat List.filter_sublist ?_ fun name absent => ?_
      · intro name member same
        cases same
        simp at member
      · by_cases same : name = n
        · exact same ▸ unregistered_concat calls n
        · exact others (by simp) name fun known =>
            absent (List.mem_filter.mpr ⟨known, by simpa using same⟩)
    | enable n => exact ih.concat (List.Sublist.refl _) (by simp) (others (by simp))
    | disable n => exact ih.concat (List.Sublist.refl _) (by simp) (others (by simp))

/-! ### Marks -/

theorem mem_disabled_of_answer {call : RegistryCall} (h : r.answer call = .ok next)
    (name : String) :
    name ∈ next.disabled ↔ (call.mark? name).getD (decide (name ∈ r.disabled)) = true := by
  cases call with
  | register checker =>
    obtain rfl := Except.ok.inj h
    simp [RegistryCall.mark?, register]
  | unregister n =>
    obtain rfl := Except.ok.inj h
    simp [RegistryCall.mark?, unregister]
  | enable n =>
    simp only [answer, enable] at h
    split at h
    · obtain rfl := Except.ok.inj h
      by_cases same : n = name
      · simp [RegistryCall.mark?, same]
      · simp [RegistryCall.mark?, same, Ne.symm same]
    · cases h
  | disable n =>
    simp only [answer, disable] at h
    split at h
    · obtain rfl := Except.ok.inj h
      by_cases same : n = name
      · simp [RegistryCall.mark?, same, mem_insertNew]
      · simp [RegistryCall.mark?, same, Ne.symm same, mem_insertNew]
    · cases h

/-- A name is marked if the last call that did not fail and enables or disables it disables it. -/
theorem mem_disabled_ofHistory (calls : List RegistryCall) (name : String) :
    name ∈ (ofHistory calls).disabled ↔
      lastOf (·.mark? name) (accepted {} calls) = some true := by
  induction calls using List.reverseRecOn with
  | nil => simp [ofHistory, accepted, lastOf]
  | append_singleton calls call ih =>
    -- A call that fails is dropped from the accepted ones and leaves the marks as they are.
    rw [ofHistory_concat, accepted_concat, after]
    show _ ↔ lastOf _ (_ ++ match (ofHistory calls).answer call with | .ok _ => _ | .error _ => _) = _
    cases answered : (ofHistory calls).answer call with
    | ok next =>
      simp only [lastOf_concat, mem_disabled_of_answer answered]
      cases call.mark? name with
      | none => simpa using ih
      | some mark => simp
    | error e => simpa using ih

/-! ### What the history tells -/

/-- What a registry has is told by the calls it has taken. -/
structure Follows (r : Registry) (calls : List RegistryCall) : Prop where
  distinct : r.names.Nodup
  /-- The last call that registers or unregisters a name says which checker has it. -/
  found : ∀ name, r.get? name = (lastOf (·.placement? name) calls).join
  registered : ∀ name, name ∈ r.names ↔
    ∃ checker, lastOf (·.placement? name) calls = some (some checker)
  since : ∀ name, name ∈ r.names ↔ ∃ i, RegisteredAt calls name i
  ordered : r.names.Pairwise (RegisteredBefore calls)
  enabled : r.enabled = r.checkers.filter fun c =>
    lastOf (·.mark? c.name) (accepted {} calls) ≠ some true

theorem follows_ofHistory (calls : List RegistryCall) : (ofHistory calls).Follows calls := by
  have lists := lists_ofHistory calls
  constructor
  case distinct => exact lists.ordered.imp RegisteredBefore.ne
  case found => exact get?_ofHistory calls
  case registered =>
    intro name
    rw [mem_names_iff, get?_ofHistory, Option.isSome_iff_exists]
    simp only [Option.join_eq_some_iff]
  case since =>
    intro name
    constructor
    · exact lists.registered name
    · rintro ⟨i, registered⟩
      by_contra absent
      exact registered.not_unregistered (lists.unregistered name absent)
  case ordered => exact lists.ordered
  case enabled =>
    refine List.filter_congr fun c _ => ?_
    rw [← List.elem_eq_contains, Bool.eq_iff_iff]
    simp [mem_disabled_ofHistory]

/-- A call about a name fails exactly if the name is not registered, and then changes nothing. -/
def Requires (r : Registry) (name : String) (call : RegistryCall) : Prop :=
  (name ∈ r.names ∧ ∃ next, r.answer call = .ok next) ∨
    (name ∉ r.names ∧ r.answer call = .error (.unknownChecker name (sortStrings r.names)) ∧
      r.after call = r)

theorem requires_of_answer {call : RegistryCall} (h : r.answer call =
    if r.names.contains name then .ok next else .error (r.unknown name)) :
    r.Requires name call := by
  by_cases known : name ∈ r.names
  · rw [if_pos (List.contains_iff_mem.mpr known)] at h
    exact .inl ⟨known, next, h⟩
  · rw [if_neg (mt List.contains_iff_mem.mp known)] at h
    exact .inr ⟨known, h, by rw [after, h]⟩

/-- Names are resolved to the checkers that have them, or the first that no checker has is
reported. -/
theorem resolve_names (r : Registry) (names : List String) :
    (∃ checkers, checkers.map (·.name) = names ∧ checkers ⊆ r.checkers ∧
      r.resolve (some names) = .ok checkers) ∨
    ∃ missing, names.find? (fun name => !r.names.contains name) = some missing ∧
      r.resolve (some names) = .error (r.unknown missing) := by
  induction names with
  | nil => exact .inl ⟨[], rfl, by simp, rfl⟩
  | cons name rest ih =>
    simp only [resolve, List.mapM_cons] at ih ⊢
    cases found : r.get? name with
    | none =>
      have absent : name ∉ r.names := by
        rw [mem_names_iff, found]
        simp
      exact .inr ⟨name, by simp [absent], rfl⟩
    | some checker =>
      have known : name ∈ r.names := by
        rw [mem_names_iff, found]
        rfl
      have named : checker.name = name := by simpa using List.find?_some found
      rcases ih with ⟨checkers, rfl, sub, resolved⟩ | ⟨missing, first, failed⟩
      · refine .inl ⟨checker :: checkers, by rw [List.map_cons, named], ?_, ?_⟩
        · exact List.cons_subset.mpr ⟨List.mem_of_find?_eq_some found, sub⟩
        · simp only [resolved]
          rfl
      · refine .inr ⟨missing, ?_, ?_⟩
        · rw [List.find?_cons_of_neg (by simpa using known), first]
        · simp only [failed]
          rfl

end Registry

/-- **A registry is determined by its history.** Whatever calls an empty registry has taken: its
names are distinct and stand in the order in which they were registered after they had last been
unregistered; the last call that registers or unregisters a name says which checker has it; and a
checker is enabled unless the last call that enabled or disabled its name, failed calls aside,
disabled it. To enable or to disable fails exactly if the name is not registered, and changes
nothing then. A run without a choice takes the enabled checkers, in order. A run with a choice takes
the chosen checkers, enabled or not, or fails for the first name that is not registered. -/
theorem registry_follows_history (calls : List RegistryCall) :
    let r := Registry.ofHistory calls
    r.Follows calls ∧
    (∀ name, r.Requires name (.enable name) ∧ r.Requires name (.disable name)) ∧
    ∀ suppressions options source,
      let runner : Runner := ⟨r, suppressions, options⟩
      (runner.run source none = .ok (runner.runCheckers source r.enabled) ∧
        (runner.runCheckers source r.enabled).checkerNames = r.enabled.map (·.name)) ∧
      ∀ names,
        (∃ checkers, checkers.map (·.name) = names ∧ checkers ⊆ r.checkers ∧
          runner.run source (some names) = .ok (runner.runCheckers source checkers) ∧
          (runner.runCheckers source checkers).checkerNames = names) ∨
        ∃ missing, names.find? (fun name => !r.names.contains name) = some missing ∧
          runner.run source (some names) =
            .error (.unknownChecker missing (sortStrings r.names)) := by
  intro r
  refine ⟨Registry.follows_ofHistory calls,
    fun name => ⟨Registry.requires_of_answer rfl, Registry.requires_of_answer rfl⟩,
    fun suppressions options source => ?_⟩
  intro runner
  refine ⟨⟨rfl, runner.map_name_turns source r.enabled⟩, fun names => ?_⟩
  rcases r.resolve_names names with ⟨checkers, named, sub, resolved⟩ | ⟨missing, first, failed⟩
  · have ran : runner.run source (some names) = .ok (runner.runCheckers source checkers) := by
      rw [Runner.run, show runner.registry.resolve (some names) = _ from resolved]
      rfl
    exact .inl ⟨checkers, named, sub, ran, named ▸ runner.map_name_turns source checkers⟩
  · refine .inr ⟨missing, first, ?_⟩
    rw [Runner.run, show runner.registry.resolve (some names) = _ from failed]
    rfl

/-- A name that was disabled and then unregistered comes back last and disabled; to enable it in
between failed. -/
example :
    let r := Registry.ofHistory [.register Brackets.checker, .register Strings.checker,
      .disable "brackets", .unregister "brackets", .enable "brackets", .register Brackets.checker]
    r.names = ["strings", "brackets"] ∧ r.enabled.map (·.name) = ["strings"] := by
  decide +kernel

end LexLint
