import InterruptStress.LineTable.Registry
import InterruptStress.Proofs.Execution
import Mathlib.Data.List.Nodup

/-!
# What a registry knows

A registry is built by registrations and by requests for capabilities, in any order.  Its counter
and its map are two things, and a registration goes right only because they agree: the identities
that the map knows are those from one up to the counter, and no other (`Registry.Numbered`).  So the
identity that a registration takes from the counter is new, and the map takes nothing back.

Hence as long as the counter can count on, the methods of a registry are exactly what was
registered, each under the identity that its registration returned (`Registry.Kept`).  No request
grants a capability that is not potential.

The lookup by description is the one part of a registry that is not fixed by its history: where
several methods have one description, any of them may be found.  `Registry.Finds` is all that is
known of it; the first such method that is met is one choice (`Registry.finds_find?`).
-/

namespace InterruptStress.LineTable

/-! ## Maps -/

namespace MethodMap

variable {map : MethodMap} {id : MethodId} {m : Method} {d : Descriptor}
  {order : List (MethodId × Method)}

/-- What a map has for an identity stands in its one entry for it. -/
theorem mem_entries_iff : (id, m) ∈ map.entries ↔ map.get? id = some m := by
  rw [get?, Option.map_eq_some_iff]
  constructor
  · intro hmem
    obtain ⟨found, hfound⟩ : ∃ found, map.entries.find? (·.1 = id) = some found := by
      rw [← Option.isSome_iff_exists, List.find?_isSome]
      exact ⟨(id, m), hmem, decide_eq_true rfl⟩
    have hid : found.1 = id := by simpa using List.find?_some hfound
    have hsame := List.inj_on_of_nodup_map map.nodup (List.mem_of_find?_eq_some hfound) hmem hid
    exact ⟨found, hfound, by rw [hsame]⟩
  · rintro ⟨⟨found, m⟩, hfound, rfl⟩
    obtain rfl : found = id := by simpa using List.find?_some hfound
    exact List.mem_of_find?_eq_some hfound

/-- A map has what was put into it, and else what it had. -/
theorem get?_insert (map : MethodMap) (id id' : MethodId) (m : Method) :
    (map.insert id m).get? id' = if id' = id then some m else map.get? id' := by
  have hentry (m' : Method) : (map.insert id m).get? id' = some m' ↔
      (map.get? id' = some m' ∧ id' ≠ id) ∨ (id' = id ∧ m' = m) := by
    rw [← mem_entries_iff, ← mem_entries_iff]
    simp [insert]
  ext m'
  rw [hentry]
  by_cases hid : id' = id
  · simp [hid, eq_comm]
  · simp [hid]

theorem size_insert_of_new (h : map.get? id = none) : (map.insert id m).size = map.size + 1 := by
  have hall : ∀ entry ∈ map.entries, decide (entry.1 ≠ id) = true := by
    rintro ⟨known, m'⟩ hentry
    have hknown := mem_entries_iff.mp hentry
    refine decide_eq_true fun hid => ?_
    have hid : known = id := hid
    rw [hid, h] at hknown
    cases hknown
  have hentries : (map.insert id m).entries = map.entries ++ [(id, m)] := by
    simp only [insert, List.filter_eq_self.mpr hall]
  rw [size, size, hentries, List.length_append, List.length_singleton]

/-- What is found stands in the order and has the description. -/
theorem of_findIn (h : findIn order d = some id) :
    ∃ m, (id, m) ∈ order ∧ m.descriptor = d := by
  obtain ⟨⟨id, m⟩, hfound, rfl⟩ := Option.map_eq_some_iff.mp h
  exact ⟨m, List.mem_of_find?_eq_some hfound, by simpa using List.find?_some hfound⟩

theorem isSome_findIn_iff :
    (∃ id, findIn order d = some id) ↔ ∃ entry ∈ order, entry.2.descriptor = d := by
  constructor
  · rintro ⟨id, hid⟩
    obtain ⟨m, hm, hd⟩ := MethodMap.of_findIn hid
    exact ⟨_, hm, hd⟩
  · rintro ⟨entry, hentry, hd⟩
    have hsome : (order.find? fun entry => entry.2.descriptor == d).isSome = true := by
      rw [List.find?_isSome]
      exact ⟨entry, hentry, by simpa using hd⟩
    obtain ⟨found, hfound⟩ := Option.isSome_iff_exists.mp hsome
    exact ⟨found.1, by rw [findIn, hfound]; rfl⟩

end MethodMap

/-! ## Calls -/

/-- A call that changes a registry. -/
inductive RegistryCall where
  | register (m : Method)
  | addCapabilities (c : Capabilities)

namespace Registry

/-- Makes a call.  A registration returns only while the counter can count on. -/
def call (r : Registry) : RegistryCall → Option Registry
  | .register m => if r.nextId.toNat + 1 < UInt32.size then some (r.register m).2 else none
  | .addCapabilities c => some (r.addCapabilities c).2

/-- What a registration returned, with the method that it was for. -/
def registration? : Registry × RegistryCall → Option (MethodId × Method)
  | (r, .register m) => some ((r.register m).1, m)
  | (_, .addCapabilities _) => none

/-- The registrations of a history, the latest first. -/
def registered (history : List (Registry × RegistryCall)) : List (MethodId × Method) :=
  history.filterMap registration?

variable {potential c : Capabilities} {history : List (Registry × RegistryCall)}
  {r r' : Registry} {m : Method} {id : MethodId} {d : Descriptor}

/-! ## Counter and map -/

/-- The map of a registry knows the identities from one up to the counter, and no other. -/
structure Numbered (r : Registry) : Prop where
  nextId_eq : r.nextId.toNat = r.size + 1
  known_iff : ∀ id, (∃ m, r.get? id = some m) ↔
    0 < id.number.toNat ∧ id.number.toNat < r.nextId.toNat

theorem get?_new : (new potential).get? id = none := rfl

theorem numbered_new : (new potential).Numbered where
  nextId_eq := rfl
  known_iff id := by
    have hfirst : (new potential).nextId.toNat = 1 := rfl
    simp only [get?_new, hfirst]
    constructor
    · rintro ⟨m, hm⟩
      cases hm
    · omega

theorem eq_nextId_iff : id = ⟨r.nextId⟩ ↔ id.number.toNat = r.nextId.toNat := by
  rw [UInt32.toNat_inj]
  constructor
  · rintro rfl
    rfl
  · intro hnumber
    rw [← hnumber]

/-- The identity that comes next is not known yet. -/
theorem Numbered.get?_nextId (h : r.Numbered) : r.get? ⟨r.nextId⟩ = none := by
  rw [Option.eq_none_iff_forall_ne_some]
  intro m hm
  exact Nat.lt_irrefl _ ((h.known_iff ⟨r.nextId⟩).mp ⟨m, hm⟩).2

/-- A registration puts its method under the identity that it returns, and moves no other. -/
theorem get?_register :
    (r.register m).2.get? id = if id = (r.register m).1 then some m else r.get? id :=
  MethodMap.get?_insert r.methods ⟨r.nextId⟩ id m

theorem toNat_nextId_register (hfits : r.nextId.toNat + 1 < UInt32.size) :
    (r.register m).2.nextId.toNat = r.nextId.toNat + 1 := by
  have hone : (1 : UInt32).toNat = 1 := rfl
  rw [register, UInt32.toNat_add, hone]
  exact Nat.mod_eq_of_lt hfits

theorem Numbered.register (h : r.Numbered) (hfits : r.nextId.toNat + 1 < UInt32.size) :
    (r.register m).2.Numbered where
  nextId_eq := by
    have hsize : (r.register m).2.size = r.size + 1 := MethodMap.size_insert_of_new h.get?_nextId
    rw [toNat_nextId_register hfits, hsize, h.nextId_eq]
  known_iff id := by
    rw [toNat_nextId_register hfits, get?_register]
    by_cases hid : id = (r.register m).1
    · have hnumber : id.number.toNat = r.nextId.toNat := eq_nextId_iff.mp hid
      have hpos := h.nextId_eq
      simp only [if_pos hid, hnumber]
      exact iff_of_true ⟨m, rfl⟩ (by omega)
    · have hnumber : id.number.toNat ≠ r.nextId.toNat := mt eq_nextId_iff.mpr hid
      rw [if_neg hid, h.known_iff]
      omega

/-! ## What every reachable registry keeps -/

/-- What the calls of a history leave of a registry that was made for a capability. -/
structure Kept (potential : Capabilities) (history : List (Registry × RegistryCall))
    (r : Registry) : Prop where
  potential_eq : r.potential = potential
  /-- Only what is potential has been granted. -/
  granted : r.possessed.lineNumbers = true → r.potential.lineNumbers = true
  numbered : r.Numbered
  /-- The methods are the registered ones, each under its own identity. -/
  get?_iff : ∀ id m, r.get? id = some m ↔ (id, m) ∈ registered history

theorem Kept.size_lt (h : Kept potential history r) : r.size < UInt32.size := by
  have hnext := h.numbered.nextId_eq
  have hfits := r.nextId.toNat_lt_size
  omega

theorem kept_new : Kept potential [] (new potential) where
  potential_eq := rfl
  granted := nofun
  numbered := numbered_new
  get?_iff _ _ := by simp [get?_new, registered]

theorem Kept.register (h : Kept potential history r) (hfits : r.nextId.toNat + 1 < UInt32.size) :
    Kept potential ((r, .register m) :: history) (r.register m).2 where
  potential_eq := h.potential_eq
  granted := h.granted
  numbered := h.numbered.register hfits
  get?_iff id m' := by
    have hregistered : (id, m') ∈ registered ((r, .register m) :: history) ↔
        (id = (r.register m).1 ∧ m' = m) ∨ r.get? id = some m' := by
      rw [h.get?_iff]
      simp [registered, registration?]
    have hnew : r.get? (r.register m).1 = none := h.numbered.get?_nextId
    rw [hregistered, get?_register]
    by_cases hid : id = (r.register m).1
    · subst hid
      simp [hnew, eq_comm]
    · simp [hid]

theorem addCapabilities_ok_iff :
    (r.addCapabilities c).1 = .ok () ↔ (c.lineNumbers = true → r.potential.lineNumbers = true) := by
  unfold addCapabilities
  by_cases hrefused : (c.lineNumbers && !r.potential.lineNumbers) = true
  · rw [if_pos hrefused]
    simp_all
  · rw [if_neg hrefused]
    simp_all

/-- A request adds what it asks for, if that is potential, and touches nothing else. -/
theorem addCapabilities_snd : (r.addCapabilities c).2 = { r with possessed :=
    ⟨r.possessed.lineNumbers || (c.lineNumbers && r.potential.lineNumbers)⟩ } := by
  unfold addCapabilities
  cases hc : c.lineNumbers <;> cases hp : r.potential.lineNumbers <;> simp

theorem Kept.addCapabilities (h : Kept potential history r) (c : Capabilities) :
    Kept potential ((r, .addCapabilities c) :: history) (r.addCapabilities c).2 := by
  rw [addCapabilities_snd]
  refine ⟨h.potential_eq, fun hpossessed => ?_, ⟨h.numbered.nextId_eq, h.numbered.known_iff⟩,
    h.get?_iff⟩
  rcases Bool.or_eq_true_iff.mp hpossessed with hbefore | hnow
  · exact h.granted hbefore
  · exact (Bool.and_eq_true_iff.mp hnow).2

theorem Kept.call {c : RegistryCall} (h : Kept potential history r) (hcall : r.call c = some r') :
    Kept potential ((r, c) :: history) r' := by
  cases c with
  | register m =>
    rw [Registry.call, Option.ite_none_right_eq_some] at hcall
    obtain ⟨hfits, hr'⟩ := hcall
    rw [← Option.some.inj hr']
    exact h.register hfits
  | addCapabilities c =>
    rw [← Option.some.inj hcall]
    exact h.addCapabilities c

theorem kept_of_run (hrun : Execution call (new potential) history r) :
    Kept potential history r := by
  induction hrun with
  | nil => exact kept_new
  | cons _ hcall ih => exact ih.call hcall

/-- The built-in registry is reached by three registrations. -/
theorem builtin_reached : ∃ history, Execution call (new ⟨true⟩) history builtin :=
  ⟨_, .of_replay .nil (harnessMethods.map RegistryCall.register) rfl⟩

/-! ## The lookup by description -/

/-- A lookup by description finds a method that has it if there is one.  Of several it may find
any. -/
structure Finds (find? : Registry → Descriptor → Option MethodId) : Prop where
  found : ∀ r d id, r.size < UInt32.size → find? r d = some id →
    ∃ m, r.get? id = some m ∧ m.descriptor = d
  missed : ∀ r d id m, r.size < UInt32.size → find? r d = none → r.get? id = some m →
    m.descriptor ≠ d

theorem finds_find? : Finds find? where
  found r d id _ h := by
    obtain ⟨m, hm, hd⟩ := MethodMap.of_findIn h
    exact ⟨m, MethodMap.mem_entries_iff.mp hm, hd⟩
  missed r d id m _ h hm hd := by
    obtain ⟨found, hfound⟩ :=
      MethodMap.isSome_findIn_iff.mpr ⟨(id, m), MethodMap.mem_entries_iff.mpr hm, hd⟩
    have hfound : r.find? d = some found := hfound
    rw [h] at hfound
    cases hfound

end Registry

end InterruptStress.LineTable
