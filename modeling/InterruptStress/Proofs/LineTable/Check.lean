import InterruptStress.LineTable.Check
import InterruptStress.Proofs.LineTable.Query

/-!
# The check of a registry

A registry is the reference for the line-number query, so the check may find nothing wrong with
it.  That rests on the order of the query's argument checks: a missing capability comes before an
unknown method, an unknown method before a missing slot, and a missing slot before anything that
depends on the method.  Hence a probe of a registered method fails as it should whether the method
is native, has lines or not (`Registry.mismatches_of_known`), and the outcome of a whole check is
decided by the capability and by the registrations alone (`Registry.checked_of_run`).
-/

namespace InterruptStress.LineTable

namespace Registry

/-- A registry as an introspection interface with some lookup by description. -/
def introspectorBy (find? : Registry → Descriptor → Option MethodId) : Introspector Registry :=
  { introspector with find? }

variable {potential : Capabilities} {history : List (Registry × RegistryCall)}
  {find? : Registry → Descriptor → Option MethodId} {r : Registry} {m : Method}
  {id? : Option MethodId} {id : MethodId} {slots : Slots} {dumped : Bool}

/-! ## The three probes -/

/-- A probe of a query that fails with some error. -/
theorem mismatch?_of_error (p : Probe) {e : QueryError} {slots : Slots}
    (h : r.lineTable (p.arguments id).1 (p.arguments id).2 = (.error e, slots)) :
    p.mismatch? (introspectorBy find?) r id = if e = p.expected then none else some ⟨p, some e⟩ := by
  have hquery : (introspectorBy find?).lineTable = lineTable := rfl
  simp [Probe.mismatch?, hquery, h]

theorem mismatches_of_unpossessed (h : r.possessed.lineNumbers = false) :
    (check (introspectorBy find?) r id dumped).mismatches =
      Probe.all.map fun p => ⟨p, some .mustPossessCapability⟩ := by
  have hprobe (p : Probe) : p.mismatch? (introspectorBy find?) r id =
      some ⟨p, some .mustPossessCapability⟩ := by
    rw [mismatch?_of_error p (lineTable_of_unpossessed h)]
    cases p <;> rfl
  simp only [check, hprobe]
  exact congrFun List.filterMap_eq_map Probe.all

/-- A call without a method fails as it should. -/
theorem mismatch?_noMethod (h : r.possessed.lineNumbers = true) :
    Probe.noMethod.mismatch? (introspectorBy find?) r id = none := by
  rw [mismatch?_of_error .noMethod (lineTable_of_unknown h rfl)]
  rfl

theorem mismatches_of_unknown (h : r.possessed.lineNumbers = true) (hid : r.get? id = none) :
    (check (introspectorBy find?) r id dumped).mismatches =
      [⟨.noCount, some .invalidMethodId⟩, ⟨.noTable, some .invalidMethodId⟩] := by
  have hcount : Probe.noCount.mismatch? (introspectorBy find?) r id =
      some ⟨.noCount, some .invalidMethodId⟩ := by
    rw [mismatch?_of_error .noCount (lineTable_of_unknown h hid)]
    rfl
  have htable : Probe.noTable.mismatch? (introspectorBy find?) r id =
      some ⟨.noTable, some .invalidMethodId⟩ := by
    rw [mismatch?_of_error .noTable (lineTable_of_unknown h hid)]
    rfl
  simp [check, Probe.all, mismatch?_noMethod h, hcount, htable]

theorem mismatches_of_known (h : r.possessed.lineNumbers = true) (hid : r.get? id = some m) :
    (check (introspectorBy find?) r id dumped).mismatches = [] := by
  have hcount : Probe.noCount.mismatch? (introspectorBy find?) r id = none := by
    rw [mismatch?_of_error .noCount (lineTable_of_missing h hid (.inl rfl))]
    rfl
  have htable : Probe.noTable.mismatch? (introspectorBy find?) r id = none := by
    rw [mismatch?_of_error .noTable (lineTable_of_missing h hid (.inr rfl))]
    rfl
  simp [check, Probe.all, mismatch?_noMethod h, hcount, htable]

theorem mismatches_eq_nil_iff :
    (check (introspectorBy find?) r id dumped).mismatches = [] ↔
      r.possessed.lineNumbers = true ∧ ∃ m, r.get? id = some m := by
  cases hpossessed : r.possessed.lineNumbers with
  | false => simp [mismatches_of_unpossessed hpossessed, Probe.all]
  | true =>
    cases hid : r.get? id with
    | none => simp [mismatches_of_unknown hpossessed hid]
    | some m => simp [mismatches_of_known hpossessed hid]

/-! ## The agent -/

theorem Agent.negotiate_ok {α : Type} (step : String) (a : α) :
    Agent.negotiate step (.ok a) = .ok a := rfl

/-- An agent asks for what is potential, gets it, and leaves the methods alone. -/
theorem Kept.negotiated (find? : Registry → Descriptor → Option MethodId) (dumped : Bool)
    (h : Kept potential history r) :
    ∃ s, Agent.negotiated (introspectorBy find?) r dumped = .ok ⟨s, potential, dumped⟩ ∧
      s.possessed = potential ∧ Kept potential ((r, .addCapabilities potential) :: history) s := by
  -- Whatever was granted before is potential, so it adds nothing to what is granted now.
  have hsame : (r.possessed.lineNumbers || potential.lineNumbers) = potential.lineNumbers := by
    have hgranted := h.granted
    rw [h.potential_eq] at hgranted
    cases hp : r.possessed.lineNumbers with
    | false => rfl
    | true => exact (hgranted hp).symm
  have hadd : (introspectorBy find?).add r potential =
      (.ok (), { r with possessed := potential }) := by
    have hregistry : (introspectorBy find?).add = Registry.addCapabilities := rfl
    simp [hregistry, Registry.addCapabilities, h.potential_eq, hsame]
  have hkept := h.addCapabilities potential
  have hnext : (r.addCapabilities potential).2 = { r with possessed := potential } :=
    congrArg Prod.snd hadd
  rw [hnext] at hkept
  refine ⟨_, ?_, rfl, hkept⟩
  have hpotential : (introspectorBy find?).potential r = .ok potential :=
    congrArg Except.ok h.potential_eq
  unfold Agent.negotiated
  rw [hpotential]
  simp only [Agent.negotiate_ok, bind, Except.bind, hadd]
  rfl

/-- What the check makes of a registry: the agent has the potential capability, and the outcome is
decided by it and by the registrations. -/
structure Checked (i : Introspector Registry) (potential : Capabilities)
    (registrations : List (MethodId × Method)) (agent : Agent Registry) : Prop where
  capabilities : agent.capabilities = potential
  skipped : (∃ report, agent.runCheck i = .ok report ∧ report.skipped = true ∧
    report.passed = true) ↔ potential.lineNumbers = false
  /-- Nothing but a missing constructor is an error. -/
  failed : ∀ e, agent.runCheck i = .error e ↔ e = .methodNotFound harnessConstructor ∧
    potential.lineNumbers = true ∧ ∀ entry ∈ registrations, entry.2.descriptor ≠ harnessConstructor
  passed : potential.lineNumbers = true →
    (∃ entry ∈ registrations, entry.2.descriptor = harnessConstructor) →
    ∃ report, agent.runCheck i = .ok report ∧ report.skipped = false ∧ report.mismatches = [] ∧
      report.status = 0

/-- What a check of one method finds. -/
structure Probed (i : Introspector Registry) (r : Registry)
    (registrations : List (MethodId × Method)) (id : MethodId) (dumped : Bool) : Prop where
  clean : (check i r id dumped).mismatches = [] ↔
    r.possessed.lineNumbers = true ∧ ∃ m, (id, m) ∈ registrations
  unpossessed : r.possessed.lineNumbers = false →
    (check i r id dumped).mismatches = Probe.all.map fun p => ⟨p, some .mustPossessCapability⟩
  unknown : r.possessed.lineNumbers = true → (∀ m, (id, m) ∉ registrations) →
    (check i r id dumped).mismatches =
      [⟨.noCount, some .invalidMethodId⟩, ⟨.noTable, some .invalidMethodId⟩]

theorem Kept.probed (h : Kept potential history r) (id : MethodId) (dumped : Bool) :
    Probed (introspectorBy find?) r (registered history) id dumped where
  clean := by simp only [mismatches_eq_nil_iff, h.get?_iff]
  unpossessed := mismatches_of_unpossessed
  unknown hpossessed hunknown := by
    refine mismatches_of_unknown hpossessed (Option.eq_none_iff_forall_ne_some.mpr fun m hm => ?_)
    exact hunknown m ((h.get?_iff id m).mp hm)

theorem Kept.checked (hfinds : Finds find?) (h : Kept potential history r)
    (hpossessed : r.possessed = potential) (dumped : Bool) :
    Checked (introspectorBy find?) potential (registered history) ⟨r, potential, dumped⟩ := by
  have hfind : (introspectorBy find?).find? = find? := rfl
  cases hp : potential.lineNumbers with
  | false =>
    have hrun : (Agent.mk r potential dumped).runCheck (introspectorBy find?) = .ok .skip := by
      simp [Agent.runCheck, hp]
    exact ⟨rfl, by simp [hrun, hp, CheckReport.skip, CheckReport.passed], by simp [hrun, hp],
      by simp [hp]⟩
  | true =>
    cases hlookup : find? r harnessConstructor with
    | none =>
      have hrun : (Agent.mk r potential dumped).runCheck (introspectorBy find?) =
          .error (.methodNotFound harnessConstructor) := by
        simp [Agent.runCheck, hp, hfind, hlookup]
      have hnone : ∀ entry ∈ registered history, entry.2.descriptor ≠ harnessConstructor :=
        fun entry hmem => hfinds.missed _ _ entry.1 _ h.size_lt hlookup ((h.get?_iff _ _).mpr hmem)
      refine ⟨rfl, by simp [hrun, hp], fun e => ?_, fun _ hsome => ?_⟩
      · rw [hrun]
        constructor
        · intro he
          exact ⟨(Except.error.inj he).symm, hp, hnone⟩
        · rintro ⟨rfl, -, -⟩
          rfl
      · obtain ⟨entry, hmem, hd⟩ := hsome
        exact absurd hd (hnone entry hmem)
    | some id =>
      obtain ⟨m, hm, hd⟩ := hfinds.found _ _ _ h.size_lt hlookup
      have hclean : (check (introspectorBy find?) r id dumped).mismatches = [] :=
        mismatches_of_known (hpossessed ▸ hp) hm
      have hrun : (Agent.mk r potential dumped).runCheck (introspectorBy find?) =
          .ok (check (introspectorBy find?) r id dumped) := by
        simp [Agent.runCheck, hp, hfind, hlookup]
      refine ⟨rfl, by simp [hrun, hp, check], fun e => ?_, fun _ _ => ?_⟩
      · rw [hrun]
        constructor
        · exact nofun
        · rintro ⟨-, -, hnone⟩
          exact absurd hd (hnone _ ((h.get?_iff id m).mp hm))
      · refine ⟨_, hrun, rfl, hclean, ?_⟩
        simp [CheckReport.status, CheckReport.passed, hclean]

/-- Whatever was registered and asked for, in whatever order, and whichever of several methods
with one description is found: the negotiation succeeds, and the check passes unless there is
nothing to check or no constructor was registered.  A check of any one method passes if and only
if line numbers are possessed and its identity was returned by a registration. -/
theorem checked_of_run (hfinds : Finds find?)
    (hrun : Execution call (new potential) history r) (dumped : Bool) :
    (∃ agent, Agent.negotiated (introspectorBy find?) r dumped = .ok agent ∧
      Checked (introspectorBy find?) potential (registered history) agent) ∧
    ∀ id, Probed (introspectorBy find?) r (registered history) id dumped := by
  have h := kept_of_run hrun
  obtain ⟨s, hnegotiated, hpossessed, hs⟩ := h.negotiated find? dumped
  exact ⟨⟨_, hnegotiated, hs.checked hfinds hpossessed dumped⟩, fun id => h.probed id dumped⟩

/-- A registry whose constructor was registered twice, once as a native method and once without
lines. -/
theorem checked_of_run_twice :
    ∃ history r agent, Execution call (new ⟨true⟩) history r ∧ r.size = 3 ∧
      Agent.negotiated introspector r true = .ok agent ∧
      Checked introspector ⟨true⟩ (registered history) agent ∧
      ∃ report, agent.runCheck introspector = .ok report ∧ report.status = 0 := by
  have hrun := Execution.of_replay (.nil : Execution call (new ⟨true⟩) [] _)
    [.register ⟨⟨harnessClass, "check", "()I"⟩, true, none⟩,
      .register ⟨harnessConstructor, true, none⟩, .addCapabilities ⟨false⟩,
      .register ⟨harnessConstructor, false, none⟩] rfl
  obtain ⟨⟨agent, hnegotiated, hchecked⟩, -⟩ := checked_of_run finds_find? hrun true
  obtain ⟨report, hreport, -, -, hstatus⟩ := hchecked.passed rfl ⟨_, .head _, rfl⟩
  exact ⟨_, _, agent, hrun, rfl, hnegotiated, hchecked, report, hreport, hstatus⟩

end Registry

end InterruptStress.LineTable
