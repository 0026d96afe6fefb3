import Mathlib.Data.List.Nodup
import DesiredState.Proofs.Identity

/-!
# Strict matching

The strict flag makes an entry fail that has a second candidate among the objects that are still free.
Where entries that mean one object have one identity, the flag asks the same of all the objects: only an
entry of the same identity can have taken a candidate before, and that one had no second candidate
either. So a strict matching is a lenient one that stops at the first entry that means several of the
objects it started from.
-/

set_option autoImplicit false

namespace DesiredState

namespace Schema

variable {schema : Schema}

private theorem settle_of_several {entry : Descriptor} {candidates : List RemoteObject}
    (several : 1 < candidates.length) :
    schema.settle true entry candidates =
      .error (.ambiguousMatch schema.kind (schema.identityLabel entry) candidates.length) := by
  simp [settle, several]

private theorem settle_of_single {entry : Descriptor} {candidates : List RemoteObject}
    (single : candidates.length ≤ 1) :
    schema.settle true entry candidates = schema.settle false entry candidates := by
  simp [settle, Nat.not_lt.mpr single]

/-- The first entry that means several of the objects. -/
def firstSeveral? (entries : List Descriptor) (objects : List RemoteObject) : Option Descriptor :=
  entries.find? fun entry => 1 < objects.countP entry.matchesObject

private theorem firstSeveral?_eq_none {entries : List Descriptor} {objects : List RemoteObject} :
    firstSeveral? entries objects = none ↔
      ∀ entry ∈ entries, objects.countP entry.matchesObject ≤ 1 := by
  simp [firstSeveral?, List.find?_eq_none]

private theorem firstSeveral?_eq_some {entries : List Descriptor} {objects : List RemoteObject}
    {entry : Descriptor} :
    firstSeveral? entries objects = some entry ↔
      1 < objects.countP entry.matchesObject ∧ ∃ before after, entries = before ++ entry :: after ∧
        ∀ earlier ∈ before, objects.countP earlier.matchesObject ≤ 1 := by
  simp [firstSeveral?, List.find?_eq_some_iff_append]

/-- An entry without a second candidate takes none from an entry that has one. -/
theorem countP_eraseP_of_single {first second : Descriptor}
    (related : first.identity = second.identity ∨ Apart first second) {free : List RemoteObject}
    (single : free.countP first.matchesObject ≤ 1) (several : 1 < free.countP second.matchesObject) :
    (free.eraseP first.matchesObject).countP second.matchesObject =
      free.countP second.matchesObject := by
  rcases related with same | apart
  · have alike : free.countP first.matchesObject = free.countP second.matchesObject :=
      congrArg (free.countP ·) (funext (Descriptor.matchesObject_of_identity same))
    omega
  · rw [List.countP_eq_length_filter, apart.filter_eraseP, List.countP_eq_length_filter]

private theorem firstSeveral?_eraseP {entry : Descriptor} {rest : List Descriptor}
    (tell : TellApart (entry :: rest)) {free : List RemoteObject}
    (single : free.countP entry.matchesObject ≤ 1) :
    firstSeveral? rest (free.eraseP entry.matchesObject) = firstSeveral? rest free := by
  rw [firstSeveral?, firstSeveral?, ← List.head?_filter, ← List.head?_filter]
  refine congrArg List.head? (List.filter_congr fun later member => decide_eq_decide.mpr ?_)
  have related := tell.same_or_apart List.mem_cons_self (List.mem_cons_of_mem _ member)
  constructor
  · intro several
    exact Nat.lt_of_lt_of_le several List.eraseP_sublist.countP_le
  · intro several
    rwa [countP_eraseP_of_single related single several]

/-- A strict matching finds what a lenient one finds, or stops at the first entry that means several
of the objects. -/
theorem matchEntries_strict {entries : List Descriptor} (tell : TellApart entries)
    {free : List RemoteObject} {set : OperationSet}
    (lenient : schema.matchEntries false entries free = .ok set) :
    schema.matchEntries true entries free =
      match firstSeveral? entries free with
      | none => .ok set
      | some entry => .error (.ambiguousMatch schema.kind (schema.identityLabel entry)
          (free.countP entry.matchesObject)) := by
  induction entries generalizing free set with
  | nil => exact lenient
  | cons entry rest ih =>
      rw [matchEntries_cons] at lenient ⊢
      by_cases several : 1 < free.countP entry.matchesObject
      · have isFirst : firstSeveral? (entry :: rest) free = some entry := by
          simp [firstSeveral?, several]
        rw [List.countP_eq_length_filter] at several
        rw [isFirst, settle_of_several several]
        simp only [List.countP_eq_length_filter]
      · have single : free.countP entry.matchesObject ≤ 1 := Nat.not_lt.mp several
        have notFirst : firstSeveral? (entry :: rest) free = firstSeveral? rest free := by
          simp [firstSeveral?, several]
        rw [settle_of_single (List.countP_eq_length_filter ▸ single), notFirst,
          ← firstSeveral?_eraseP tell single]
        cases settled : schema.settle false entry (free.filter entry.matchesObject) with
        | error error => simp [settled] at lenient
        | ok pair =>
            cases recursive : schema.matchEntries false rest (free.eraseP entry.matchesObject) with
            | error error => simp [settled, recursive, Except.map] at lenient
            | ok others =>
                simp only [settled, recursive, Except.map] at lenient
                rw [ih tell.of_cons recursive]
                cases found : firstSeveral? rest (free.eraseP entry.matchesObject) with
                | none => exact lenient
                | some later =>
                    have ofAll := firstSeveral?_eraseP tell single ▸ found
                    have related := tell.same_or_apart List.mem_cons_self
                      (List.mem_cons_of_mem _ (List.mem_of_find?_eq_some found))
                    have kept := countP_eraseP_of_single related single (firstSeveral?_eq_some.mp ofAll).1
                    simp only [Except.map, kept]

/-- Strict matching is lenient matching with a guarantee: it succeeds exactly where lenient matching does,
with the same operations, and every entry means at most one of the observed objects. Where only the lenient
one succeeds, the strict one reports the first entry that means several of the observed objects, and how
many these are. -/
theorem strict_reconcile_is_unique_reconcile (schema : Schema) (byText : schema.IdentifiedByText)
    (desired : List Attributes) (entries : List Descriptor)
    (described : schema.descriptors desired = .ok entries) (objects : List RemoteObject) :
    (∀ set, schema.reconcile objects entries true = .ok set ↔
      schema.reconcile objects entries false = .ok set ∧
        ∀ entry ∈ entries, objects.countP entry.matchesObject ≤ 1) ∧
    ∀ set error, schema.reconcile objects entries false = .ok set →
      schema.reconcile objects entries true = .error error →
      ∃ before entry after, entries = before ++ entry :: after ∧
        (∀ earlier ∈ before, objects.countP earlier.matchesObject ≤ 1) ∧
        2 ≤ objects.countP entry.matchesObject ∧
        error = .ambiguousMatch schema.kind (schema.identityLabel entry)
          (objects.countP entry.matchesObject) := by
  have tell := tellApart_of_descriptors byText described
  refine ⟨fun set => ⟨fun accepted => ?_, fun ⟨lenient, single⟩ => ?_⟩, fun set error lenient failed => ?_⟩
  · have lenient := (matched_of_matchEntries accepted).matchEntries
    rw [reconcile, matchEntries_strict tell lenient] at accepted
    cases found : firstSeveral? entries objects with
    | none => exact ⟨lenient, firstSeveral?_eq_none.mp found⟩
    | some entry => simp [found] at accepted
  · rw [reconcile, matchEntries_strict tell lenient, firstSeveral?_eq_none.mpr single]
  · rw [reconcile, matchEntries_strict tell lenient] at failed
    cases found : firstSeveral? entries objects with
    | none => simp [found] at failed
    | some entry =>
        simp only [found, Except.error.injEq] at failed
        obtain ⟨several, before, after, split, single⟩ := firstSeveral?_eq_some.mp found
        exact ⟨before, entry, after, split, single, several, failed.symm⟩

/-- Rules of which two are wanted by one label that one rule has, and another by a label that two have. -/
def sharedLabels : List Descriptor × List RemoteObject :=
  (["dns", "dns", "ssh"].map Catalog.wantedRule,
    [Catalog.observedRule 2 "ssh", Catalog.observedRule 3 "dns", Catalog.observedRule 4 "ssh"])

theorem strict_reconcile_is_unique_reconcile_sharedLabels :
    Catalog.firewallRule.IdentifiedByText ∧
      Catalog.firewallRule.descriptors (sharedLabels.1.map (·.identity)) = .ok sharedLabels.1 ∧
      (∃ set, Catalog.firewallRule.reconcile sharedLabels.2 sharedLabels.1 false = .ok set ∧
        set.toUpdate.map (·.remote.id) = [3, 2] ∧
        Catalog.firewallRule.reconcile sharedLabels.2 sharedLabels.1 true =
          .error (.ambiguousMatch "firewall_rule" "firewall_rule[label=ssh]" 2) ∧
        ∃ before entry after, sharedLabels.1 = before ++ entry :: after ∧
          (∀ earlier ∈ before, sharedLabels.2.countP earlier.matchesObject ≤ 1) ∧
          2 ≤ sharedLabels.2.countP entry.matchesObject) ∧
      ∃ set, Catalog.firewallRule.reconcile (sharedLabels.2.drop 1) sharedLabels.1 false = .ok set ∧
        set.toCreate.map (·.identityKey) = ["label=dns"] ∧
        Catalog.firewallRule.reconcile (sharedLabels.2.drop 1) sharedLabels.1 true = .ok set := by
  have byText : Catalog.firewallRule.IdentifiedByText := Catalog.identifiedByText (by decide)
  obtain ⟨_, ambiguous⟩ := strict_reconcile_is_unique_reconcile Catalog.firewallRule byText
    (sharedLabels.1.map (·.identity)) sharedLabels.1 rfl sharedLabels.2
  obtain ⟨unique, _⟩ := strict_reconcile_is_unique_reconcile Catalog.firewallRule byText
    (sharedLabels.1.map (·.identity)) sharedLabels.1 rfl (sharedLabels.2.drop 1)
  obtain ⟨before, entry, after, split, single, several, _⟩ := ambiguous _ _ rfl rfl
  have atMostOne : ∀ entry ∈ sharedLabels.1,
      (sharedLabels.2.drop 1).countP entry.matchesObject ≤ 1 := by decide
  exact ⟨byText, rfl, ⟨_, rfl, by decide, rfl, before, entry, after, split, single, several⟩,
    _, rfl, by decide, (unique _).mpr ⟨rfl, atMostOne⟩⟩

/-! ## Pairs and identities -/

namespace Matched

variable {entries : List Descriptor} {free : List RemoteObject} {set : OperationSet}

private theorem desired_sublist (matched : schema.Matched entries free set) :
    (set.toUpdate.map (·.desired)).Sublist entries := by
  induction matched with
  | done _ => exact .slnil
  | create _ _ ih => exact ih.cons _
  | pair _ _ _ _ ih => exact ih.cons_cons _

/-- An entry means the objects of the pairs that have its identity. -/
theorem countP_remotes (matched : schema.Matched entries free set) (tell : TellApart entries)
    {entry : Descriptor} (member : entry ∈ entries) :
    (set.toUpdate.map (·.remote)).countP entry.matchesObject =
      ((set.toUpdate.map (·.desired)).map (·.identity)).count entry.identity := by
  rw [List.count_eq_countP, List.countP_map, List.countP_map, List.countP_map]
  refine List.countP_congr fun pair inPairs => ?_
  have known := matched.pairOf_mem inPairs
  simp only [Function.comp_apply, beq_iff_eq]
  constructor
  · intro means
    exact tell pair.desired known.desired_mem entry member pair.remote known.meant means
  · intro same
    rw [← Descriptor.matchesObject_of_identity same]
    exact known.meant

/-- A strict matching of entries with distinct identities finds what a lenient one finds. -/
theorem strict_of_distinct (matched : schema.Matched entries free set) (noDelete : set.toDelete = [])
    (tell : TellApart entries) (distinct : (entries.map (·.identity)).Nodup) :
    schema.matchEntries true entries free = .ok set := by
  have noSeveral : firstSeveral? entries free = none := by
    refine firstSeveral?_eq_none.mpr fun entry member => ?_
    have distinctPairs := distinct.sublist (matched.desired_sublist.map (·.identity))
    calc free.countP entry.matchesObject
        = (set.toUpdate.map (·.remote)).countP entry.matchesObject := by
          rw [matched.perm_observed.countP_eq, noDelete, List.append_nil]
      _ = ((set.toUpdate.map (·.desired)).map (·.identity)).count entry.identity :=
          matched.countP_remotes tell member
      _ ≤ 1 := List.nodup_iff_count_le_one.mp distinctPairs _
  rw [matchEntries_strict tell matched.matchEntries, noSeveral]

/-- A strict matching is ambiguous where two entries have one identity and both have an object. -/
theorem ambiguous_of_repeated (matched : schema.Matched entries free set)
    (noCreate : set.toCreate = []) (tell : TellApart entries)
    (repeated : ¬ (entries.map (·.identity)).Nodup) :
    ∃ label candidates, schema.matchEntries true entries free =
      .error (.ambiguousMatch schema.kind label candidates) := by
  rw [matchEntries_strict tell matched.matchEntries]
  cases found : firstSeveral? entries free with
  | some entry => exact ⟨_, _, rfl⟩
  | none =>
      refine absurd (List.nodup_iff_count_le_one.mpr fun identity => ?_) repeated
      by_cases listed : identity ∈ entries.map (·.identity)
      · obtain ⟨entry, member, rfl⟩ := List.mem_map.mp listed
        calc (entries.map (·.identity)).count entry.identity
            = (set.toUpdate.map (·.remote)).countP entry.matchesObject := by
              rw [matched.countP_remotes tell member, matched.desired_of_no_create noCreate]
          _ ≤ free.countP entry.matchesObject := by
              rw [matched.perm_observed.countP_eq, List.countP_append]
              exact Nat.le_add_right _ _
          _ ≤ 1 := firstSeveral?_eq_none.mp found entry member
      · rw [List.count_eq_zero_of_not_mem listed]
        exact Nat.zero_le 1

end Matched

end Schema

end DesiredState
