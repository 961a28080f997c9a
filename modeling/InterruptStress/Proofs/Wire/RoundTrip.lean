import InterruptStress.Journal
import InterruptStress.Proofs.Timestamp
import InterruptStress.Proofs.Wire.Lawful
import InterruptStress.Report

/-!
# Decoding undoes encoding

Every type that travels between a controller and its targets, is reported, or is kept in a journal
is decoded from its own text (`Wire.decode?_encode_all`).
-/

namespace InterruptStress

/-! ## Plain values -/

theorem Json.isPlain_ofInt {i : Int} (h : i.natAbs < 18_446_744_073_709_551_616) :
    (ofInt i).IsPlain := by
  rw [ofInt, IsPlain]
  exact ⟨i, h, rfl⟩

theorem Json.integerIn?_ofInt {low high i : Int} (hlow : low ≤ i) (hhigh : i ≤ high) :
    (ofInt i).integerIn? low high = some i := by
  simp [integerIn?, ofInt, Numeral.integer?_ofInt, hlow, hhigh]

instance : Wire.Lawful UInt64 where
  plain n := Json.isPlain_ofInt (by have := n.toNat_lt; omega)
  present _ := nofun
  read ctx n := by
    have hbound := n.toNat_lt
    have hread : (Json.ofNat n.toNat).integerIn? 0 18_446_744_073_709_551_615 =
        some (n.toNat : Int) :=
      Json.integerIn?_ofInt (by omega) (by omega)
    change ((Json.ofNat n.toNat).integerIn? _ _).map _ = some n
    rw [hread, Option.map_some, Int.toNat_natCast, UInt64.ofNat_toNat]

instance : Wire.Lawful UInt32 where
  plain n := Json.isPlain_ofInt (by have := n.toNat_lt; omega)
  present _ := nofun
  read ctx n := by
    have hbound := n.toNat_lt
    have hread : (Json.ofNat n.toNat).integerIn? 0 4_294_967_295 = some (n.toNat : Int) :=
      Json.integerIn?_ofInt (by omega) (by omega)
    change ((Json.ofNat n.toNat).integerIn? _ _).map _ = some n
    rw [hread, Option.map_some, Int.toNat_natCast, UInt32.ofNat_toNat]

instance : Wire.Lawful Int32 where
  plain n := Json.isPlain_ofInt (by have := n.le_toInt; have := n.toInt_lt; omega)
  present _ := nofun
  read ctx n := by
    have hlow := n.le_toInt
    have hhigh := n.toInt_lt
    have hread : (Json.ofInt n.toInt).integerIn? (-2_147_483_648) 2_147_483_647 = some n.toInt :=
      Json.integerIn?_ofInt (by omega) (by omega)
    change ((Json.ofInt n.toInt).integerIn? _ _).map _ = some n
    rw [hread, Option.map_some, Int32.ofInt_toInt]

instance : Wire.Lawful Bool where
  plain _ := trivial
  present _ := nofun
  read _ _ := rfl

instance : Wire.Lawful String where
  plain _ := rfl
  present _ := nofun
  read _ _ := rfl

/-! ## Names -/

theorem SuspendPolicy.ofName?_name (p : SuspendPolicy) : ofName? p.name = some p := by
  cases p <;> rfl

theorem Transport.ofName?_name (t : Transport) : ofName? t.name = some t := by
  cases t <;> rfl

instance : Wire.Lawful Mode where
  plain _ := rfl
  present _ := nofun
  read _ m := m.ofName?_name

instance : Wire.Lawful SuspendPolicy where
  plain _ := rfl
  present _ := nofun
  read _ p := p.ofName?_name

instance : Wire.Lawful Transport where
  plain _ := rfl
  present _ := nofun
  read _ t := t.ofName?_name

/-! ## Records -/

instance : Wire.Lawful ThreadId where
  plain t := Wire.Lawful.plain t.number
  present _ := nofun
  read ctx t := by
    change (Wire.ofJson? ctx (Wire.toJson t.number)).map ThreadId.mk = some t
    rw [Wire.Lawful.read]
    rfl

instance : Wire.Lawful Location where
  plain l := Json.isPlain_record (by simp [Wire.Lawful.plain])
  present _ := nofun
  read ctx l := by
    have hfields : (Wire.toJson l).fields? ["method", "line"] =
        some [some (Wire.toJson l.method), some (Wire.toJson l.line)] :=
      Json.fields?_record rfl (by decide)
    simp only [Wire.ofJson?, hfields, Option.bind_eq_bind, Option.bind_some, Json.required_toJson]

instance : Wire.Lawful WorkerReport where
  plain r := Json.isPlain_record (by simp [Wire.Lawful.plain, Json.isPlain_toJson_option])
  present _ := nofun
  read ctx r := by
    have hfields : (Wire.toJson r).fields?
        ["mode", "iterations_completed", "interrupts_observed", "interrupts_sent"] =
        some [some (Wire.toJson r.mode), some (Wire.toJson r.iterationsCompleted),
          some (Wire.toJson r.interruptsObserved), some (Wire.toJson r.interruptsSent)] :=
      Json.fields?_record rfl (by decide)
    simp only [Wire.ofJson?, hfields, Option.bind_eq_bind, Option.bind_some, Json.required_toJson,
      Json.optional_toJson]

instance : Wire.Lawful GeneratorReport where
  plain r := Json.isPlain_record (by simp [Wire.Lawful.plain])
  present _ := nofun
  read ctx r := by
    have hfields : (Wire.toJson r).fields? ["strategy", "interrupts_sent"] =
        some [some (Wire.toJson r.strategy), some (Wire.toJson r.interruptsSent)] :=
      Json.fields?_record rfl (by decide)
    simp only [Wire.ofJson?, hfields, Option.bind_eq_bind, Option.bind_some, Json.required_toJson]

instance : Wire.Lawful TargetExit where
  plain e := Json.isPlain_record (by simp [Wire.Lawful.plain, Json.isPlain_toJson_option])
  present _ := nofun
  read ctx e := by
    have hfields : (Wire.toJson e).fields? ["code", "report", "failure"] =
        some [some (Wire.toJson e.code), some (Wire.toJson e.report),
          some (Wire.toJson e.failure)] :=
      Json.fields?_record rfl (by decide)
    simp only [Wire.ofJson?, hfields, Option.bind_eq_bind, Option.bind_some, Json.required_toJson,
      Json.optional_toJson]

/-- A duration is made up of its own parts. -/
theorem Duration.ofParts?_parts (d : Duration) : ofParts? d.secs d.nanos = some d := by
  have hsecs := d.secs.toNat_lt
  have hnanos := d.nanos_lt
  have hquotient : (d.secs.toNat * 1_000_000_000 + d.nanos.toNat) / 1_000_000_000 =
      d.secs.toNat := by omega
  have hremainder : (d.secs.toNat * 1_000_000_000 + d.nanos.toNat) % 1_000_000_000 =
      d.nanos.toNat := by omega
  rw [ofParts?, ofNanos?, if_pos (by omega)]
  cases d with
  | mk secs nanos hlt =>
    simp only [ofNanos, hquotient, hremainder, UInt64.ofNat_toNat, UInt32.ofNat_toNat]

instance : Wire.Lawful Duration where
  plain d := Json.isPlain_record (by simp [Wire.Lawful.plain])
  present _ := nofun
  read ctx d := by
    have hfields : (Wire.toJson d).closedFields? ["secs", "nanos"] =
        some [some (Wire.toJson d.secs), some (Wire.toJson d.nanos)] :=
      Json.closedFields?_record rfl (by decide)
    change ((Wire.toJson d).closedFields? ["secs", "nanos"]).bind _ = some d
    rw [hfields]
    change (Json.required ctx (some (Wire.toJson d.secs))).bind (fun secs =>
      (Json.required ctx (some (Wire.toJson d.nanos))).bind fun nanos =>
        Duration.ofParts? secs nanos) = some d
    rw [Json.required_toJson, Option.bind_some, Json.required_toJson, Option.bind_some,
      Duration.ofParts?_parts]

instance : Wire.Lawful HangReport where
  plain h := Json.isPlain_record (by simp [Wire.Lawful.plain])
  present _ := nofun
  read ctx h := by
    have hfields : (Wire.toJson h).fields? ["steps", "idle", "interval"] =
        some [some (Wire.toJson h.steps), some (Wire.toJson h.idle),
          some (Wire.toJson h.interval)] :=
      Json.fields?_record rfl (by decide)
    simp only [Wire.ofJson?, hfields, Option.bind_eq_bind, Option.bind_some, Json.required_toJson]

instance : Wire.Lawful (Except String GeneratorReport) where
  plain r := by
    cases r <;> exact Json.isPlain_record (by simp [Wire.Lawful.plain])
  present r := by cases r <;> nofun
  read ctx r := by
    cases r with
    | ok report =>
      change (Wire.ofJson? ctx.inner (Wire.toJson report)).map Except.ok = _
      rw [Wire.Lawful.read]
      rfl
    | error reason =>
      change (Wire.ofJson? ctx.inner (Wire.toJson reason)).map Except.error = _
      rw [Wire.Lawful.read]
      rfl

instance : Wire.Lawful RunReport where
  plain r := Json.isPlain_record (by simp [Wire.Lawful.plain, Json.isPlain_toJson_option])
  present _ := nofun
  read ctx r := by
    have hfields : (Wire.toJson r).fields?
        ["run_id", "mode", "steps", "hang", "exit", "remote"] =
        some [some (Wire.toJson r.runId), some (Wire.toJson r.mode), some (Wire.toJson r.steps),
          some (Wire.toJson r.hang), some (Wire.toJson r.exit), some (Wire.toJson r.remote)] :=
      Json.fields?_record rfl (by decide)
    simp only [Wire.ofJson?, hfields, Option.bind_eq_bind, Option.bind_some, Json.required_toJson,
      Json.optional_toJson]

/-! ## Messages -/

theorem ThreadId.depth_toJson (t : ThreadId) : (Wire.toJson t).depth = 0 := rfl

theorem Location.depth_le (l : Location) : (Wire.toJson l).depth ≤ 1 := Nat.le_refl 1

theorem WorkerReport.depth_le (r : WorkerReport) : (Wire.toJson r).depth ≤ 1 := by
  obtain ⟨mode, completed, observed, sent⟩ := r
  cases sent <;> exact Nat.le_refl 1

theorem TargetExit.depth_le (e : TargetExit) : (Wire.toJson e).depth ≤ 2 := by
  obtain ⟨code, report, failure⟩ := e
  have hreport : (Wire.toJson report).depth ≤ 1 := by
    cases report with
    | none => exact Nat.zero_le 1
    | some report => exact report.depth_le
  have hfailure : (Wire.toJson failure).depth ≤ 1 := by
    cases failure <;> exact Nat.zero_le 1
  refine Json.depth_record_le (List.forall_mem_cons.mpr ⟨Nat.zero_le 1, ?_⟩)
  simp [hreport, hfailure]

namespace TargetEvent

theorem isPlain_wireFields (e : TargetEvent) : ∀ m ∈ e.wireFields, m.2.IsPlain := by
  cases e <;> simp [wireFields, Wire.Lawful.plain]

theorem isPlain (e : TargetEvent) : (Wire.toJson e).IsPlain :=
  Json.isPlain_record (List.forall_mem_cons.mpr ⟨rfl, e.isPlain_wireFields⟩)

/-- An event contains an exit that contains a report, at most. -/
theorem depth_le (e : TargetEvent) : (Wire.toJson e).depth ≤ 3 := by
  refine Json.depth_record_le (List.forall_mem_cons.mpr ⟨Nat.zero_le 2, ?_⟩)
  cases e with
  | started | threadDeath | disconnected => simp [wireFields, ThreadId.depth_toJson]
  | step _ location =>
    have hlocation : (Wire.toJson location).depth ≤ 2 := Nat.le_succ_of_le location.depth_le
    simp [wireFields, ThreadId.depth_toJson, hlocation]
    exact Nat.zero_le 2
  | death exit => simpa [wireFields] using exit.depth_le

theorem ofFields?_wireFields (ctx : Json.Context) (e : TargetEvent) :
    ofFields? ctx e.typeName (Json.record e.wireFields) = some e := by
  cases e with
  | started mainThread =>
    have hfields : (Json.record (wireFields (.started mainThread))).fields? ["main_thread"] =
        some [some (Wire.toJson mainThread)] := Json.fields?_record rfl (by decide)
    simp only [ofFields?, typeName, hfields, Option.bind_eq_bind, Option.bind_some,
      Json.required_toJson]
  | step thread location suspended =>
    have hfields : (Json.record (wireFields (.step thread location suspended))).fields?
        ["thread", "location", "suspended"] =
        some [some (Wire.toJson thread), some (Wire.toJson location),
          some (Wire.toJson suspended)] := Json.fields?_record rfl (by decide)
    simp only [ofFields?, typeName, hfields, Option.bind_eq_bind, Option.bind_some,
      Json.required_toJson]
  | threadDeath thread =>
    have hfields : (Json.record (wireFields (.threadDeath thread))).fields? ["thread"] =
        some [some (Wire.toJson thread)] := Json.fields?_record rfl (by decide)
    simp only [ofFields?, typeName, hfields, Option.bind_eq_bind, Option.bind_some,
      Json.required_toJson]
  | death exit =>
    have hfields : (Json.record (wireFields (.death exit))).fields? ["exit"] =
        some [some (Wire.toJson exit)] := Json.fields?_record rfl (by decide)
    simp only [ofFields?, typeName, hfields, Option.bind_eq_bind, Option.bind_some,
      Json.required_toJson]
  | disconnected =>
    have hfields : (Json.record (wireFields .disconnected)).fields? [] = some [] :=
      Json.fields?_record rfl (by decide)
    simp only [ofFields?, typeName, hfields, Option.bind_eq_bind, Option.bind_some]

/-- An event is read back wherever it does not stand too deep. -/
theorem ofJson?_toJson {ctx : Json.Context} {e : TargetEvent}
    (hlevel : ctx.level + (Wire.toJson e).depth ≤ Json.maxDepth) :
    Wire.ofJson? ctx (Wire.toJson e) = some e := by
  have htype : ∀ m ∈ e.wireFields, m.1 ≠ Json.typeKey := by
    cases e <;> simp [wireFields, Json.typeKey]
  change ((Json.message e.typeName e.wireFields).message? ctx).bind _ = some e
  rw [Json.message?_message hlevel e.isPlain_wireFields htype, Option.bind_some]
  exact ofFields?_wireFields ctx.inMessage e

end TargetEvent

namespace ControlCommand

theorem isPlain_wireFields (c : ControlCommand) : ∀ m ∈ c.wireFields, m.2.IsPlain := by
  cases c <;> simp [wireFields, Wire.Lawful.plain]

theorem isPlain (c : ControlCommand) : (Wire.toJson c).IsPlain :=
  Json.isPlain_record (List.forall_mem_cons.mpr ⟨rfl, c.isPlain_wireFields⟩)

theorem depth_le (c : ControlCommand) : (Wire.toJson c).depth ≤ 1 := by
  cases c <;> exact Nat.le_refl 1

theorem ofFields?_wireFields (ctx : Json.Context) (c : ControlCommand) :
    ofFields? ctx c.typeName (Json.record c.wireFields) = some c := by
  cases c with
  | createStepRequest thread suspend =>
    have hfields : (Json.record (wireFields (.createStepRequest thread suspend))).fields?
        ["thread", "suspend"] = some [some (Wire.toJson thread), some (Wire.toJson suspend)] :=
      Json.fields?_record rfl (by decide)
    simp only [ofFields?, typeName, hfields, Option.bind_eq_bind, Option.bind_some,
      Json.required_toJson]
  | resume =>
    have hfields : (Json.record (wireFields .resume)).fields? [] = some [] :=
      Json.fields?_record rfl (by decide)
    simp only [ofFields?, typeName, hfields, Option.bind_eq_bind, Option.bind_some]
  | interrupt thread =>
    have hfields : (Json.record (wireFields (.interrupt thread))).fields? ["thread"] =
        some [some (Wire.toJson thread)] := Json.fields?_record rfl (by decide)
    simp only [ofFields?, typeName, hfields, Option.bind_eq_bind, Option.bind_some,
      Json.required_toJson]
  | exit code =>
    have hfields : (Json.record (wireFields (.exit code))).fields? ["code"] =
        some [some (Wire.toJson code)] := Json.fields?_record rfl (by decide)
    simp only [ofFields?, typeName, hfields, Option.bind_eq_bind, Option.bind_some,
      Json.required_toJson]

theorem ofJson?_toJson {ctx : Json.Context} {c : ControlCommand}
    (hlevel : ctx.level + (Wire.toJson c).depth ≤ Json.maxDepth) :
    Wire.ofJson? ctx (Wire.toJson c) = some c := by
  have htype : ∀ m ∈ c.wireFields, m.1 ≠ Json.typeKey := by
    cases c <;> simp [wireFields, Json.typeKey]
  change ((Json.message c.typeName c.wireFields).message? ctx).bind _ = some c
  rw [Json.message?_message hlevel c.isPlain_wireFields htype, Option.bind_some]
  exact ofFields?_wireFields ctx.inMessage c

end ControlCommand

/-! ## Time stamps and journal entries -/

theorem Timestamp.ofJson?_toJson {t : Timestamp} (h : t.IsRegular) (ctx : Json.Context) :
    Wire.ofJson? ctx (Wire.toJson t) = some t := by
  change (Wire.ofJson? ctx (Wire.toJson t.text) : Option String).bind Timestamp.parse? = some t
  rw [Wire.Lawful.read, Option.bind_some, Timestamp.parse?_text h]

namespace JournalEntry

theorem isPlain (e : JournalEntry) : (Wire.toJson e).IsPlain := by
  refine Json.isPlain_record (List.forall_mem_cons.mpr ⟨rfl, ?_⟩)
  simp [Wire.Lawful.plain, TargetEvent.isPlain]

theorem ofJson?_toJson {e : JournalEntry} (h : e.time.IsRegular) :
    Wire.ofJson? .top (Wire.toJson e) = some e := by
  have hfields : (Wire.toJson e).fields? ["ts", "run_id", "event"] =
      some [some (Wire.toJson e.time), some (Wire.toJson e.runId), some (Wire.toJson e.event)] :=
    Json.fields?_record rfl (by decide)
  have htime : Json.required Json.Context.top.inner (some (Wire.toJson e.time)) =
      some e.time := by
    rw [Json.required, Option.bind_some, Timestamp.ofJson?_toJson h]
  have hlevel : Json.Context.top.inner.level + (Wire.toJson e.event).depth ≤ Json.maxDepth :=
    Nat.le_trans (Nat.add_le_add_left e.event.depth_le 1) (by decide)
  have hevent : Json.required Json.Context.top.inner (some (Wire.toJson e.event)) =
      some e.event := by
    rw [Json.required, Option.bind_some, TargetEvent.ofJson?_toJson hlevel]
  simp only [Wire.ofJson?, hfields, Option.bind_eq_bind, Option.bind_some, htime, hevent,
    Json.required_toJson]

end JournalEntry

/-! ## All types -/

namespace Wire

theorem decode?_encode_event (e : TargetEvent) : decode? (encode e) = some e :=
  decode?_encode_of_read e.isPlain
    (TargetEvent.ofJson?_toJson (Nat.le_trans (Nat.add_le_add_left e.depth_le 0) (by decide)))

theorem decode?_encode_command (c : ControlCommand) : decode? (encode c) = some c :=
  decode?_encode_of_read c.isPlain
    (ControlCommand.ofJson?_toJson (Nat.le_trans (Nat.add_le_add_left c.depth_le 0) (by decide)))

theorem decode?_encode_entry {e : JournalEntry} (h : e.time.IsCivil) :
    decode? (encode e) = some e :=
  decode?_encode_of_read e.isPlain (JournalEntry.ofJson?_toJson h.isRegular)

/-- Every value of every type on the wire is decoded from its text; a journal entry if its time
stamp has a year of four digits and is no leap second. -/
theorem decode?_encode_all :
    (∀ m : Mode, decode? (encode m) = some m) ∧
    (∀ p : SuspendPolicy, decode? (encode p) = some p) ∧
    (∀ t : Transport, decode? (encode t) = some t) ∧
    (∀ t : ThreadId, decode? (encode t) = some t) ∧
    (∀ l : Location, decode? (encode l) = some l) ∧
    (∀ r : WorkerReport, decode? (encode r) = some r) ∧
    (∀ r : GeneratorReport, decode? (encode r) = some r) ∧
    (∀ h : HangReport, decode? (encode h) = some h) ∧
    (∀ e : TargetExit, decode? (encode e) = some e) ∧
    (∀ e : TargetEvent, decode? (encode e) = some e) ∧
    (∀ c : ControlCommand, decode? (encode c) = some c) ∧
    (∀ r : RunReport, decode? (encode r) = some r) ∧
    ∀ e : JournalEntry, e.time.IsCivil → decode? (encode e) = some e :=
  ⟨decode?_encode, decode?_encode, decode?_encode, decode?_encode, decode?_encode, decode?_encode,
    decode?_encode, decode?_encode, decode?_encode, decode?_encode_event, decode?_encode_command,
    decode?_encode, fun _ => decode?_encode_entry⟩

/-- An entry of the last nanosecond of a leap day, with an event that has everything in it. -/
def leapDayEntry : JournalEntry :=
  ⟨⟨⟨2024, 2, 29⟩, 86399, 999_999_999⟩, "a\"\n",
    .death ⟨-1, some ⟨.precise, 1, 2, some 3⟩, some "ü"⟩⟩

theorem decode?_encode_all_leapDay :
    leapDayEntry.time.IsCivil ∧ decode? (encode leapDayEntry) = some leapDayEntry := by
  have htime : leapDayEntry.time.IsCivil := ⟨by decide, by decide, by decide, by decide⟩
  exact ⟨htime, decode?_encode_all.2.2.2.2.2.2.2.2.2.2.2.2 leapDayEntry htime⟩

end Wire

end InterruptStress
