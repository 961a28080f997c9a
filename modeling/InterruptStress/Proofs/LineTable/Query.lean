import InterruptStress.Proofs.LineTable.Store

/-!
# The line-number query

A query has five reasons to fail, and the first of them in a fixed order counts.  `Registry.Answers`
states the answer by what has been called and not by what a registry holds: whether line numbers
were ever granted, and which method was registered under the identity that is asked for.  The
rules exclude each other, so `Registry.lineTable_of_run` can say that an answer is the registry's
exactly if the rules admit it.

Since a registration moves no other method, an identity keeps its answer whatever is registered
after it; only the first grant of line numbers changes what a query says.
-/

namespace InterruptStress.LineTable

namespace Registry

variable {potential : Capabilities} {history : List (Registry × RegistryCall)}
  {start r r' : Registry} {m : Method} {id? : Option MethodId} {id : MethodId} {slots : Slots}
  {registrations : List (MethodId × Method)}

/-! ## The query of one registry -/

theorem lineTable_of_unpossessed (h : r.possessed.lineNumbers = false) :
    r.lineTable id? slots = (.error .mustPossessCapability, slots) := by
  simp [lineTable, h]

theorem lineTable_of_unknown (h : r.possessed.lineNumbers = true) (hid : id?.bind r.get? = none) :
    r.lineTable id? slots = (.error .invalidMethodId, slots) := by
  simp [lineTable, h, hid]

/-- A slot that is missing is noticed before anything about the method. -/
theorem lineTable_of_missing (h : r.possessed.lineNumbers = true) (hid : r.get? id = some m)
    (hslots : slots.count = none ∨ slots.table = none) :
    r.lineTable (some id) slots = (.error .nullPointer, slots) := by
  obtain ⟨count, table⟩ := slots
  have hbind : (some id).bind r.get? = some m := hid
  simp only [lineTable, h, hbind]
  rcases hslots with rfl | rfl
  · rfl
  · cases count <;> rfl

/-- With both slots the answer is the method's own. -/
theorem lineTable_of_slots (h : r.possessed.lineNumbers = true) (hid : r.get? id = some m)
    (count : Int32) (table : List Row) :
    r.lineTable (some id) ⟨some count, some table⟩ =
      if m.isNative then (.error .nativeMethod, ⟨some count, some table⟩)
      else match m.rows with
        | none => (.error .absentInformation, ⟨some count, some table⟩)
        | some rows => (.ok (), ⟨some (rowCount rows), some rows⟩) := by
  have hbind : (some id).bind r.get? = some m := hid
  simp only [lineTable, h, hbind]
  rfl

/-- The number of rows that is reported, which stops at the largest 32-bit number. -/
theorem toInt_rowCount (rows : List Row) :
    (rowCount rows).toInt = (min rows.length 2_147_483_647 : Nat) := by
  rw [rowCount]
  apply Int32.toInt_ofNat_of_lt
  omega

/-- Only the capability and the method decide about the answer. -/
theorem lineTable_congr (hpossessed : r'.possessed.lineNumbers = r.possessed.lineNumbers)
    (hid : r'.get? id = r.get? id) (slots : Slots) :
    r'.lineTable (some id) slots = r.lineTable (some id) slots := by
  have hbind : (some id).bind r'.get? = (some id).bind r.get? := hid
  unfold lineTable
  rw [hpossessed, hbind]

/-! ## The rules of an answer -/

/-- What a query answers, and what it leaves in the slots.  Every rule but the first presupposes
that line numbers were granted, and each that those before it do not apply. -/
inductive Answers (granted : Prop) (registrations : List (MethodId × Method))
    (id? : Option MethodId) (slots : Slots) : Except QueryError Unit × Slots → Prop where
  | unpossessed : ¬ granted →
      Answers granted registrations id? slots (.error .mustPossessCapability, slots)
  /-- No method is given, or one whose identity no registration has returned. -/
  | unknown : granted → (∀ id ∈ id?, ∀ m, (id, m) ∉ registrations) →
      Answers granted registrations id? slots (.error .invalidMethodId, slots)
  | missing {id : MethodId} {m : Method} : granted → id? = some id → (id, m) ∈ registrations →
      slots.count = none ∨ slots.table = none →
        Answers granted registrations id? slots (.error .nullPointer, slots)
  | native {id : MethodId} {m : Method} {count : Int32} {table : List Row} :
      granted → id? = some id → (id, m) ∈ registrations → slots = ⟨some count, some table⟩ →
        m.isNative = true →
          Answers granted registrations id? slots (.error .nativeMethod, slots)
  | absent {id : MethodId} {m : Method} {count : Int32} {table : List Row} :
      granted → id? = some id → (id, m) ∈ registrations → slots = ⟨some count, some table⟩ →
        m.isNative = false → m.rows = none →
          Answers granted registrations id? slots (.error .absentInformation, slots)
  /-- The slots hold the rows of the registration and their number, and nothing of what they
  held before. -/
  | rows {id : MethodId} {m : Method} {count number : Int32} {table rows : List Row} :
      granted → id? = some id → (id, m) ∈ registrations → slots = ⟨some count, some table⟩ →
        m.isNative = false → m.rows = some rows →
          number.toInt = (min rows.length 2_147_483_647 : Nat) →
            Answers granted registrations id? slots (.ok (), ⟨some number, some rows⟩)

variable {granted : Prop} {answer : Except QueryError Unit × Slots}

/-- One of the rules applies. -/
theorem exists_answers (granted : Prop) (registrations : List (MethodId × Method))
    (id? : Option MethodId) (slots : Slots) :
    ∃ answer, Answers granted registrations id? slots answer := by
  by_cases hyes : granted
  · by_cases hknown : ∃ id m, id? = some id ∧ (id, m) ∈ registrations
    · obtain ⟨id, m, hid, hm⟩ := hknown
      obtain ⟨count, table⟩ := slots
      by_cases hcount : count = none
      · exact ⟨_, .missing hyes hid hm (.inl hcount)⟩
      · by_cases htable : table = none
        · exact ⟨_, .missing hyes hid hm (.inr htable)⟩
        · obtain ⟨count, rfl⟩ := Option.ne_none_iff_exists'.mp hcount
          obtain ⟨table, rfl⟩ := Option.ne_none_iff_exists'.mp htable
          by_cases hnative : m.isNative = true
          · exact ⟨_, .native hyes hid hm rfl hnative⟩
          · rw [Bool.not_eq_true] at hnative
            cases hrows : m.rows with
            | none => exact ⟨_, .absent hyes hid hm rfl hnative hrows⟩
            | some rows =>
              exact ⟨_, .rows hyes hid hm rfl hnative hrows (toInt_rowCount rows)⟩
    · exact ⟨_, .unknown hyes fun id hid m hm => hknown ⟨id, m, hid, hm⟩⟩
  · exact ⟨_, .unpossessed hyes⟩

theorem lineTable_of_answers (hgranted : r.possessed.lineNumbers = true ↔ granted)
    (hget : ∀ id m, r.get? id = some m ↔ (id, m) ∈ registrations)
    (h : Answers granted registrations id? slots answer) : r.lineTable id? slots = answer := by
  cases h with
  | unpossessed hnot =>
    rw [← hgranted, Bool.not_eq_true] at hnot
    exact lineTable_of_unpossessed hnot
  | unknown hyes hunknown =>
    apply lineTable_of_unknown (hgranted.mpr hyes)
    rw [Option.bind_eq_none_iff]
    intro id hid
    rw [Option.eq_none_iff_forall_ne_some]
    intro m hm
    exact hunknown id hid m ((hget id m).mp hm)
  | missing hyes hid hm hslots =>
    subst hid
    exact lineTable_of_missing (hgranted.mpr hyes) ((hget _ _).mpr hm) hslots
  | native hyes hid hm hslots hnative =>
    subst hid hslots
    rw [lineTable_of_slots (hgranted.mpr hyes) ((hget _ _).mpr hm), if_pos hnative]
  | absent hyes hid hm hslots hnative hrows =>
    subst hid hslots
    simp [lineTable_of_slots (hgranted.mpr hyes) ((hget _ _).mpr hm), hnative, hrows]
  | rows hyes hid hm hslots hnative hrows hnumber =>
    subst hid hslots
    rw [← toInt_rowCount, Int32.toInt_inj] at hnumber
    simp [lineTable_of_slots (hgranted.mpr hyes) ((hget _ _).mpr hm), hnative, hrows, hnumber]

/-- The rules admit what the query says and nothing else. -/
theorem lineTable_eq_iff (hgranted : r.possessed.lineNumbers = true ↔ granted)
    (hget : ∀ id m, r.get? id = some m ↔ (id, m) ∈ registrations) :
    r.lineTable id? slots = answer ↔ Answers granted registrations id? slots answer := by
  constructor
  · rintro rfl
    obtain ⟨answer, hanswer⟩ := exists_answers granted registrations id? slots
    rw [lineTable_of_answers hgranted hget hanswer]
    exact hanswer
  · exact lineTable_of_answers hgranted hget

/-! ## Whole histories -/

/-- The registries that there are to begin with, and the registrations that have made them. -/
inductive Starts : Registry → List (MethodId × Method) → Prop where
  | empty (potential : Capabilities) : Starts (new potential) []
  | builtin {history : List (Registry × RegistryCall)} :
      Execution call (new ⟨true⟩) history builtin → Starts builtin (registered history)

theorem Starts.possessed (h : Starts start registrations) :
    start.possessed.lineNumbers = false := by
  cases h <;> rfl

/-- What starts from the built-in registry has started earlier from an empty one. -/
theorem Starts.reached (h : Starts start registrations) (hrun : Execution call start history r) :
    ∃ potential earlier, Execution call (new potential) (history ++ earlier) r ∧
      registered earlier = registrations := by
  cases h with
  | empty potential => exact ⟨potential, [], by simpa using hrun, rfl⟩
  | builtin hbuiltin => exact ⟨_, _, hbuiltin.append hrun, rfl⟩

/-- What a registry knows is what was registered before the start and since. -/
theorem Starts.get?_iff (h : Starts start registrations) (hrun : Execution call start history r)
    (id : MethodId) (m : Method) :
    r.get? id = some m ↔ (id, m) ∈ registered history ++ registrations := by
  obtain ⟨potential, earlier, hreached, rfl⟩ := h.reached hrun
  rw [(kept_of_run hreached).get?_iff, registered_append]

theorem Starts.possessed_iff (h : Starts start registrations)
    (hrun : Execution call start history r) :
    r.possessed.lineNumbers = true ↔ Granted history := by
  rw [possessed_iff_of_run hrun, h.possessed]
  simp

/-- Whatever has been registered and asked for, in whatever order: a query answers by the rules,
and by nothing but the rules, and whatever is called later, an identity that has been given keeps
its answer unless line numbers are granted only then. -/
theorem lineTable_of_run (hstart : Starts start registrations)
    (hrun : Execution call start history r) :
    (∀ id? slots answer, r.lineTable id? slots = answer ↔
      Answers (Granted history) (registered history ++ registrations) id? slots answer) ∧
    ∀ later r', Execution call r later r' → (Granted later → Granted history) →
      ∀ id m, (id, m) ∈ registered history ++ registrations → ∀ slots,
        r'.lineTable (some id) slots = r.lineTable (some id) slots := by
  constructor
  · intro id? slots answer
    exact lineTable_eq_iff (hstart.possessed_iff hrun) (hstart.get?_iff hrun)
  · intro later r' hlater hnew id m hm slots
    have hall := hrun.append hlater
    apply lineTable_congr
    · rw [Bool.eq_iff_iff, hstart.possessed_iff hall, hstart.possessed_iff hrun, granted_append]
      exact or_iff_right_of_imp hnew
    · rw [(hstart.get?_iff hrun id m).mpr hm, hstart.get?_iff hall, registered_append,
        List.append_assoc]
      exact List.mem_append_right _ hm

/-- The built-in registry after line numbers were granted and a method was registered a second
time, under another identity and with other rows. -/
theorem lineTable_of_run_builtin :
    ∃ registrations history r, Starts builtin registrations ∧ Execution call builtin history r ∧
      Answers (Granted history) (registered history ++ registrations) (some ⟨2⟩)
        ⟨some (-7), some [⟨99, 9⟩]⟩ (.ok (), ⟨some 2, some [⟨0, 48⟩, ⟨4, 49⟩]⟩) ∧
      Answers (Granted history) (registered history ++ registrations) (some ⟨4⟩)
        ⟨some (-7), none⟩ (.error .nullPointer, ⟨some (-7), none⟩) := by
  obtain ⟨earlier, hearlier⟩ := builtin_reached
  have hrun := Execution.of_replay (.nil : Execution call builtin [] _)
    [.addCapabilities ⟨true⟩, .register ⟨harnessConstructor, false, some []⟩] rfl
  have hstart := Starts.builtin hearlier
  have hanswers := (lineTable_of_run hstart hrun).1
  exact ⟨_, _, _, hstart, hrun, (hanswers _ _ _).mp rfl, (hanswers _ _ _).mp rfl⟩

end Registry

end InterruptStress.LineTable
