import InterruptStress.Proofs.Json.Spelling
import InterruptStress.Proofs.Wire.Arranged
import InterruptStress.Proofs.Wire.RoundTrip

/-!
# Messages of another party

Whoever writes a message may order the members of its objects otherwise, may know more members, may
leave out those that can be done without, and may put blanks where it likes.  A type is tolerant on
the wire when what is read of a rearranged document is the value, without what was left out, and a
flawed document is not read (`Wire.Tolerant`).  As lawfulness does, this goes from the fields of a
record to the record, and from there to events and commands (`Wire.decode?_rearranged`).
-/

namespace InterruptStress

/-- A type whose values are read from rearranged documents, and from no flawed one. -/
class Wire.Tolerant (α : Type) [Wire α] [Wire.Lawful α] where
  /-- The value without what the members of some names say. -/
  without : List String → α → α
  read {omitted : List String} (homitted : omitted ⊆ Json.dispensable) (ctx : Json.Context) (a : α)
    {j : Json} (h : Json.Arranged omitted (Wire.toJson a) j) :
    Wire.ofJson? ctx j = some (without omitted a)
  reject (ctx : Json.Context) (a : α) {j : Json} (h : Json.Flawed (Wire.toJson a) j) :
    (Wire.ofJson? ctx j : Option α) = none

/-- A type whose values are not written as objects has nothing that could be rearranged. -/
@[reducible]
def Wire.Tolerant.ofLeaf {α : Type} [Wire α] [Wire.Lawful α]
    (hleaf : ∀ (a : α) members, Wire.toJson a ≠ .obj members) : Wire.Tolerant α where
  without _ a := a
  read _ ctx a j h := by rw [Json.eq_of_arranged h (hleaf a), Wire.Lawful.read]
  reject _ a _ h := absurd h (Json.not_flawed (hleaf a))

namespace Json

/-! ## Fields -/

/-- A document that is not `null` is read as a value that is there. -/
theorem optional_some {α : Type} [Wire α] {j : Json} (hj : j ≠ .null) (ctx : Context) :
    optional ctx (some j) = (Wire.ofJson? ctx j).map (some : α → Option α) := by
  cases j with
  | null => exact absurd rfl hj
  | bool | num | str | arr | obj => rfl

section Fields

variable {α : Type} [Wire α] [Wire.Lawful α] [Wire.Tolerant α] {omitted : List String}
  {name : String} {slot : Option Json}

theorem required_found (homitted : omitted ⊆ dispensable) (hneeded : name ∉ dispensable) {a : α}
    (h : Found omitted name (Wire.toJson a) slot) (ctx : Context) :
    required ctx slot = some (Wire.Tolerant.without omitted a) := by
  cases h with
  | omitted hname => exact absurd (homitted hname) hneeded
  | kept value' _ hvalue => exact Wire.Tolerant.read homitted ctx a hvalue

theorem required_faulty {a : α} (h : Faulty name (Wire.toJson a) slot) (ctx : Context) :
    (required ctx slot : Option α) = none := by
  cases h with
  | lacking => rfl
  | within value' hvalue => exact Wire.Tolerant.reject ctx a hvalue

theorem optional_found (homitted : omitted ⊆ dispensable) {a : Option α}
    (h : Found omitted name (Wire.toJson a) slot) (ctx : Context) :
    optional ctx slot =
      some (if name ∈ omitted then none else a.map (Wire.Tolerant.without omitted)) := by
  cases h with
  | omitted hname => rw [if_pos hname, optional]
  | kept value' hname hvalue =>
    rw [if_neg hname]
    cases a with
    | none =>
      obtain rfl : value' = .null := eq_of_arranged hvalue null_ne_obj
      rfl
    | some a =>
      rw [optional_some (ne_null_of_arranged hvalue (Wire.Lawful.present a)),
        Wire.Tolerant.read homitted ctx a hvalue]
      rfl

theorem optional_faulty (hdispensable : name ∈ dispensable) {a : Option α}
    (h : Faulty name (Wire.toJson a) slot) (ctx : Context) :
    (optional ctx slot : Option (Option α)) = none := by
  cases h with
  | lacking hneeded => exact absurd hdispensable hneeded
  | within value' hvalue =>
    cases a with
    | none => exact absurd hvalue (not_flawed null_ne_obj)
    | some a =>
      rw [optional_some (ne_null_of_flawed hvalue), Wire.Tolerant.reject ctx a hvalue]
      rfl

/-- A record of one field. -/
theorem fields?_single_arranged (homitted : omitted ⊆ dispensable) (hneeded : name ∉ dispensable)
    {a : α} {j : Json} (h : Arranged omitted (record [(name, Wire.toJson a)]) j) (ctx : Context) :
    ∃ slot, j.fields? [name] = some [slot] ∧
      required ctx slot = some (Wire.Tolerant.without omitted a) := by
  obtain ⟨slot, hfields, hfound⟩ := fields?_arranged [name] h rfl (List.nodup_singleton name)
  exact ⟨slot name, hfields, required_found homitted hneeded (hfound _ List.mem_cons_self) ctx⟩

theorem bind_fields?_single {β : Type} {read : List (Option Json) → Option β} {a : α} {j : Json}
    (h : Flawed (record [(name, Wire.toJson a)]) j)
    (hread : ∀ slot, (∀ ctx, (required ctx slot : Option α) = none) → read [slot] = none) :
    (j.fields? [name]).bind read = none := by
  refine bind_fields?_flawed [name] h rfl fun slot other value hmem hfaulty => ?_
  obtain ⟨rfl, rfl⟩ := Prod.mk.inj (List.mem_singleton.mp hmem)
  exact hread _ (required_faulty hfaulty)

end Fields

end Json

/-! ## Plain values and names -/

instance : Wire.Tolerant UInt64 := .ofLeaf nofun
instance : Wire.Tolerant UInt32 := .ofLeaf nofun
instance : Wire.Tolerant Int32 := .ofLeaf nofun
instance : Wire.Tolerant Bool := .ofLeaf nofun
instance : Wire.Tolerant String := .ofLeaf nofun
instance : Wire.Tolerant Mode := .ofLeaf nofun
instance : Wire.Tolerant SuspendPolicy := .ofLeaf nofun
instance : Wire.Tolerant ThreadId := .ofLeaf nofun

/-! ## Records -/

instance : Wire.Tolerant Location where
  without _ l := l
  read homitted ctx l j h := by
    obtain ⟨slot, hfields, hfound⟩ :=
      Json.fields?_arranged ["method", "line"] h rfl (by decide)
    simp only [List.forall_mem_cons] at hfound
    obtain ⟨hmethod, hline, -⟩ := hfound
    simp only [Wire.ofJson?, hfields, List.map_cons, List.map_nil, Option.bind_eq_bind,
      Option.bind_some, Json.required_found homitted (by decide) hmethod,
      Json.required_found homitted (by decide) hline]
    rfl
  reject ctx l j h := by
    refine Json.bind_fields?_flawed ["method", "line"] h rfl fun slot name value hmem hfaulty => ?_
    simp only [List.mem_cons, List.not_mem_nil, or_false, Prod.mk.injEq] at hmem
    rcases hmem with ⟨rfl, rfl⟩ | ⟨rfl, rfl⟩
    · simp [Json.required_faulty hfaulty]
    · simp [Json.required_faulty hfaulty]

/-- A report without what members of some names say. -/
def WorkerReport.without (omitted : List String) (r : WorkerReport) : WorkerReport :=
  { r with interruptsSent := if "interrupts_sent" ∈ omitted then none else r.interruptsSent }

instance : Wire.Tolerant WorkerReport where
  without := WorkerReport.without
  read homitted ctx r j h := by
    obtain ⟨slot, hfields, hfound⟩ := Json.fields?_arranged
      ["mode", "iterations_completed", "interrupts_observed", "interrupts_sent"] h rfl (by decide)
    simp only [List.forall_mem_cons] at hfound
    obtain ⟨hmode, hcompleted, hobserved, hsent, -⟩ := hfound
    simp only [Wire.ofJson?, hfields, List.map_cons, List.map_nil, Option.bind_eq_bind,
      Option.bind_some, Json.required_found homitted (by decide) hmode,
      Json.required_found homitted (by decide) hcompleted,
      Json.required_found homitted (by decide) hobserved, Json.optional_found homitted hsent]
    simp [WorkerReport.without, Wire.Tolerant.without]
  reject ctx r j h := by
    refine Json.bind_fields?_flawed
      ["mode", "iterations_completed", "interrupts_observed", "interrupts_sent"] h rfl
      fun slot name value hmem hfaulty => ?_
    simp only [List.mem_cons, List.not_mem_nil, or_false, Prod.mk.injEq] at hmem
    rcases hmem with ⟨rfl, rfl⟩ | ⟨rfl, rfl⟩ | ⟨rfl, rfl⟩ | ⟨rfl, rfl⟩
    · simp [Json.required_faulty hfaulty]
    · simp [Json.required_faulty hfaulty]
    · simp [Json.required_faulty hfaulty]
    · simp [Json.optional_faulty (by decide) hfaulty]

@[simp] theorem WorkerReport.without_nil (r : WorkerReport) : r.without [] = r := rfl

/-- An exit without what members of some names say. -/
def TargetExit.without (omitted : List String) (e : TargetExit) : TargetExit where
  code := e.code
  report := if "report" ∈ omitted then none else e.report.map (·.without omitted)
  failure := if "failure" ∈ omitted then none else e.failure

@[simp] theorem TargetExit.without_nil (e : TargetExit) : e.without [] = e := by
  simp [TargetExit.without]

instance : Wire.Tolerant TargetExit where
  without := TargetExit.without
  read homitted ctx e j h := by
    obtain ⟨slot, hfields, hfound⟩ :=
      Json.fields?_arranged ["code", "report", "failure"] h rfl (by decide)
    simp only [List.forall_mem_cons] at hfound
    obtain ⟨hcode, hreport, hfailure, -⟩ := hfound
    simp only [Wire.ofJson?, hfields, List.map_cons, List.map_nil, Option.bind_eq_bind,
      Option.bind_some, Json.required_found homitted (by decide) hcode,
      Json.optional_found homitted hreport, Json.optional_found homitted hfailure]
    simp [TargetExit.without, Wire.Tolerant.without]
  reject ctx e j h := by
    refine Json.bind_fields?_flawed ["code", "report", "failure"] h rfl
      fun slot name value hmem hfaulty => ?_
    simp only [List.mem_cons, List.not_mem_nil, or_false, Prod.mk.injEq] at hmem
    rcases hmem with ⟨rfl, rfl⟩ | ⟨rfl, rfl⟩ | ⟨rfl, rfl⟩
    · simp [Json.required_faulty hfaulty]
    · simp [Json.optional_faulty (by decide) hfaulty]
    · simp [Json.optional_faulty (by decide) hfaulty]

/-! ## Messages -/

theorem Json.typeKey_not_mem {omitted : List String} (homitted : omitted ⊆ dispensable) :
    typeKey ∉ omitted :=
  fun h => absurd (homitted h) (by decide)

namespace TargetEvent

variable {omitted : List String} {j : Json} {ctx : Json.Context}

/-- An event without what members of some names say. -/
def without (omitted : List String) : TargetEvent → TargetEvent
  | death exit => death (exit.without omitted)
  | e => e

@[simp] theorem without_nil (e : TargetEvent) : e.without [] = e := by
  cases e <;> simp [without]

theorem ofFields?_arranged (homitted : omitted ⊆ Json.dispensable) (e : TargetEvent)
    (h : Json.Arranged omitted (Json.record e.wireFields) j) :
    ofFields? ctx e.typeName j = some (e.without omitted) := by
  cases e with
  | started mainThread =>
    obtain ⟨slot, hfields, hread⟩ := Json.fields?_single_arranged homitted (by decide) h ctx
    simp only [ofFields?, typeName, hfields, Option.bind_eq_bind, Option.bind_some, hread]
    rfl
  | step thread location suspended =>
    obtain ⟨slot, hfields, hfound⟩ :=
      Json.fields?_arranged ["thread", "location", "suspended"] h rfl (by decide)
    simp only [wireFields, List.forall_mem_cons] at hfound
    obtain ⟨hthread, hlocation, hsuspended, -⟩ := hfound
    simp only [ofFields?, typeName, hfields, List.map_cons, List.map_nil, Option.bind_eq_bind,
      Option.bind_some, Json.required_found homitted (by decide) hthread,
      Json.required_found homitted (by decide) hlocation,
      Json.required_found homitted (by decide) hsuspended]
    rfl
  | threadDeath thread =>
    obtain ⟨slot, hfields, hread⟩ := Json.fields?_single_arranged homitted (by decide) h ctx
    simp only [ofFields?, typeName, hfields, Option.bind_eq_bind, Option.bind_some, hread]
    rfl
  | death exit =>
    obtain ⟨slot, hfields, hread⟩ := Json.fields?_single_arranged homitted (by decide) h ctx
    simp only [ofFields?, typeName, hfields, Option.bind_eq_bind, Option.bind_some, hread]
    rfl
  | disconnected =>
    obtain ⟨slot, hfields, -⟩ := Json.fields?_arranged [] h rfl (by decide)
    simp only [ofFields?, typeName, hfields, List.map_nil, Option.bind_eq_bind, Option.bind_some]
    rfl

theorem ofFields?_flawed (e : TargetEvent) (h : Json.Flawed (Json.record e.wireFields) j) :
    ofFields? ctx e.typeName j = none := by
  cases e with
  | started | threadDeath | death =>
    exact Json.bind_fields?_single h fun slot hslot => by simp [hslot]
  | step thread location suspended =>
    refine Json.bind_fields?_flawed ["thread", "location", "suspended"] h rfl
      fun slot name value hmem hfaulty => ?_
    simp only [wireFields, List.mem_cons, List.not_mem_nil, or_false, Prod.mk.injEq] at hmem
    rcases hmem with ⟨rfl, rfl⟩ | ⟨rfl, rfl⟩ | ⟨rfl, rfl⟩
    · simp [Json.required_faulty hfaulty]
    · simp [Json.required_faulty hfaulty]
    · simp [Json.required_faulty hfaulty]
  | disconnected =>
    exact Json.bind_fields?_flawed [] h rfl fun _ _ _ hmem _ => absurd hmem List.not_mem_nil

theorem nodup_names (e : TargetEvent) : (Json.typeKey :: e.wireFields.map Prod.fst).Nodup := by
  cases e <;> simp [wireFields, Json.typeKey]

theorem ofJson?_arranged (homitted : omitted ⊆ Json.dispensable) (e : TargetEvent)
    (h : Json.Arranged omitted (Wire.toJson e) j) (hdepth : ctx.level + j.depth ≤ Json.maxDepth) :
    Wire.ofJson? ctx j = some (e.without omitted) := by
  obtain ⟨rest, hmessage, hrest⟩ := Json.message?_arranged h e.nodup_names
    (Json.typeKey_not_mem homitted) e.isPlain_wireFields hdepth
  simp only [Wire.ofJson?, hmessage, Option.bind_some]
  exact ofFields?_arranged homitted e hrest

theorem ofJson?_flawed (e : TargetEvent) (h : Json.Flawed (Wire.toJson e) j)
    (hsame : Json.SameType (Wire.toJson e) j) : (Wire.ofJson? ctx j : Option TargetEvent) = none :=
  Json.bind_message?_flawed h hsame e.nodup_names fun _ hrest => ofFields?_flawed e hrest

end TargetEvent

namespace ControlCommand

variable {omitted : List String} {j : Json} {ctx : Json.Context}

theorem ofFields?_arranged (homitted : omitted ⊆ Json.dispensable) (c : ControlCommand)
    (h : Json.Arranged omitted (Json.record c.wireFields) j) :
    ofFields? ctx c.typeName j = some c := by
  cases c with
  | createStepRequest thread suspend =>
    obtain ⟨slot, hfields, hfound⟩ :=
      Json.fields?_arranged ["thread", "suspend"] h rfl (by decide)
    simp only [wireFields, List.forall_mem_cons] at hfound
    obtain ⟨hthread, hsuspend, -⟩ := hfound
    simp only [ofFields?, typeName, hfields, List.map_cons, List.map_nil, Option.bind_eq_bind,
      Option.bind_some, Json.required_found homitted (by decide) hthread,
      Json.required_found homitted (by decide) hsuspend]
    rfl
  | resume =>
    obtain ⟨slot, hfields, -⟩ := Json.fields?_arranged [] h rfl (by decide)
    simp only [ofFields?, typeName, hfields, List.map_nil, Option.bind_eq_bind, Option.bind_some]
  | interrupt thread =>
    obtain ⟨slot, hfields, hread⟩ := Json.fields?_single_arranged homitted (by decide) h ctx
    simp only [ofFields?, typeName, hfields, Option.bind_eq_bind, Option.bind_some, hread]
    rfl
  | exit code =>
    obtain ⟨slot, hfields, hread⟩ := Json.fields?_single_arranged homitted (by decide) h ctx
    simp only [ofFields?, typeName, hfields, Option.bind_eq_bind, Option.bind_some, hread]
    rfl

theorem ofFields?_flawed (c : ControlCommand) (h : Json.Flawed (Json.record c.wireFields) j) :
    ofFields? ctx c.typeName j = none := by
  cases c with
  | createStepRequest thread suspend =>
    refine Json.bind_fields?_flawed ["thread", "suspend"] h rfl
      fun slot name value hmem hfaulty => ?_
    simp only [wireFields, List.mem_cons, List.not_mem_nil, or_false, Prod.mk.injEq] at hmem
    rcases hmem with ⟨rfl, rfl⟩ | ⟨rfl, rfl⟩
    · simp [Json.required_faulty hfaulty]
    · simp [Json.required_faulty hfaulty]
  | resume =>
    exact Json.bind_fields?_flawed [] h rfl fun _ _ _ hmem _ => absurd hmem List.not_mem_nil
  | interrupt | exit => exact Json.bind_fields?_single h fun slot hslot => by simp [hslot]

theorem nodup_names (c : ControlCommand) : (Json.typeKey :: c.wireFields.map Prod.fst).Nodup := by
  cases c <;> simp [wireFields, Json.typeKey]

theorem ofJson?_arranged (homitted : omitted ⊆ Json.dispensable) (c : ControlCommand)
    (h : Json.Arranged omitted (Wire.toJson c) j) (hdepth : ctx.level + j.depth ≤ Json.maxDepth) :
    Wire.ofJson? ctx j = some c := by
  obtain ⟨rest, hmessage, hrest⟩ := Json.message?_arranged h c.nodup_names
    (Json.typeKey_not_mem homitted) c.isPlain_wireFields hdepth
  simp only [Wire.ofJson?, hmessage, Option.bind_some]
  exact ofFields?_arranged homitted c hrest

theorem ofJson?_flawed (c : ControlCommand) (h : Json.Flawed (Wire.toJson c) j)
    (hsame : Json.SameType (Wire.toJson c) j) :
    (Wire.ofJson? ctx j : Option ControlCommand) = none :=
  Json.bind_message?_flawed h hsame c.nodup_names fun _ hrest => ofFields?_flawed c hrest

end ControlCommand

namespace Wire

/-- A document that is not read as a value is not decoded from any of its texts. -/
theorem decode?_of_isText {α : Type} [Wire α] {j : Json} {text : String} (h : j.IsText text) :
    (decode? text : Option α) = ofJson? .top j := by
  rw [decode?, Json.ofText?_of_isText h]
  rfl

/-- Every text of a rearranged event or command is decoded to it, as long as the nesting is no
deeper than a message may be; without members that can be done without, to the event without what
they say.  No text of a flawed one is decoded, unless it gives another type than that of the event
or the command. -/
theorem decode?_rearranged :
    (∀ (e : TargetEvent) (j : Json) (text : String), j.IsText text →
      (Json.Arranged [] (toJson e) j → j.depth ≤ Json.maxDepth → decode? text = some e) ∧
      (∀ omitted, omitted ⊆ Json.dispensable → Json.Arranged omitted (toJson e) j →
        j.depth ≤ Json.maxDepth → decode? text = some (e.without omitted)) ∧
      (Json.Flawed (toJson e) j → Json.SameType (toJson e) j →
        (decode? text : Option TargetEvent) = none)) ∧
    ∀ (c : ControlCommand) (j : Json) (text : String), j.IsText text →
      (Json.Arranged [] (toJson c) j → j.depth ≤ Json.maxDepth → decode? text = some c) ∧
      (Json.Flawed (toJson c) j → Json.SameType (toJson c) j →
        (decode? text : Option ControlCommand) = none) := by
  have hlevel {j : Json} (h : j.depth ≤ Json.maxDepth) :
      Json.Context.top.level + j.depth ≤ Json.maxDepth := (Nat.zero_add j.depth).symm ▸ h
  refine ⟨fun e j text htext => ⟨?_, ?_, ?_⟩, fun c j text htext => ⟨?_, ?_⟩⟩
  · intro h hdepth
    rw [decode?_of_isText htext, e.ofJson?_arranged (List.nil_subset _) h (hlevel hdepth),
      e.without_nil]
  · intro omitted homitted h hdepth
    rw [decode?_of_isText htext, e.ofJson?_arranged homitted h (hlevel hdepth)]
  · intro h hsame
    rw [decode?_of_isText htext, e.ofJson?_flawed h hsame]
  · intro h hdepth
    rw [decode?_of_isText htext, c.ofJson?_arranged (List.nil_subset _) h (hlevel hdepth)]
  · intro h hsame
    rw [decode?_of_isText htext, c.ofJson?_flawed h hsame]

/-- The end of a target, spelled with blanks and an escape: its exit has another order, a member
that is not known and no report.  And an interrupt that names a thread twice. -/
theorem decode?_rearranged_exit :
    (decode? ("\x7b \"exit\" : \x7b\"failure\":\"\\u00fc\",\"new\":[true],\"code\":1\x7d" ++
      ",\"type\":\"VmDeath\"\x7d\n") : Option TargetEvent) = some (.death ⟨1, none, some "ü"⟩) ∧
    (decode? "\x7b\"thread\":1,\"type\":\"Interrupt\",\"thread\":2\x7d" : Option ControlCommand) =
      none := by
  let event : TargetEvent := .death ⟨1, some ⟨.precise, 3, 3, some 4⟩, some "ü"⟩
  let failure : Option String × Json := (some "failure", .ofString "ü")
  let new : Option String × Json := (some "new", .arr [.bool true])
  let code : Option String × Json := (some "code", .ofInt 1)
  let type : Option String × Json := (some Json.typeKey, .ofString "VmDeath")
  have hself (cs : List Char) (h : cs.all Json.standsForItself = true) :
      Json.SpellsString (some (String.ofList cs)) (cs ++ ['"']) :=
    Json.spellsString_of_spelled (Json.spelled_self h)
  have hfailure : Json.Written (.ofString "ü") ('"' :: ['\\', 'u', '0', '0', 'f', 'c', '"']) :=
    .str _ _ (Json.spellsString_of_spelled (.unit '0' '0' 'f' 'c' 0xfc [] [] rfl rfl rfl .nil))
  have hothers : Json.MembersPlain [new, code] :=
    ⟨rfl, ⟨trivial, trivial⟩, rfl, ⟨1, by decide, rfl⟩, trivial⟩
  have htype : Json.MembersPlain [type] := ⟨rfl, rfl, trivial⟩
  have hexit : Json.Written (.obj [failure, new, code]) _ :=
    .obj _ _ (.more [] [] [] [] nofun nofun nofun nofun _ _ (hself "failure".toList rfl) _ _
      hfailure _ _ _ (Json.writtenMembers_compact hothers))
  have hmessage : Json.Written (.obj [(some "exit", .obj [failure, new, code]), type]) _ :=
    .obj _ _ (.more [' '] [' '] [' '] [] (by decide) (by decide) (by decide) nofun _ _
      (hself "exit".toList rfl) _ _ hexit _ _ _
      (Json.writtenMembers_compact htype))
  have harranged : Json.Arranged ["report"] (toJson event)
      (.obj [(some "exit", .obj [failure, new, code]), type]) := by
    refine .obj _ [type, (some "exit", .obj [failure, new, code])] [] _ ?_ nofun (.swap ..)
    refine .keep _ _ _ _ _ (by decide) (.leaf _ nofun) (.keep _ _ _ _ _ (by decide) ?_ .nil)
    have hperm : ([failure, new] ++ [code]).Perm ([code] ++ [failure, new]) := List.perm_append_comm
    refine .obj _ [code, failure] [new] _ ?_ ?_ hperm
    · exact .keep _ _ _ _ _ (by decide) (.leaf _ nofun)
        (.drop _ _ _ _ (by decide) (.keep _ _ _ _ _ (by decide) (.leaf _ nofun) .nil))
    · exact List.forall_mem_cons.mpr ⟨⟨rfl, by decide, trivial, trivial⟩, nofun⟩
  constructor
  · exact (decode?_rearranged.1 event _ _ ⟨[], _, ['\n'], nofun, hmessage, by decide, rfl⟩).2.1
      ["report"] (by decide) harranged (by decide)
  · let thread (number : Int) : Option String × Json := (some "thread", .ofInt number)
    let kind : Option String × Json := (some Json.typeKey, .ofString "Interrupt")
    have hplain : (Json.obj [thread 1, kind, thread 2]).IsPlain :=
      ⟨rfl, ⟨1, by decide, rfl⟩, rfl, rfl, rfl, ⟨2, by decide, rfl⟩, trivial⟩
    refine (decode?_rearranged.2 (.interrupt ⟨1⟩) (.obj [thread 1, kind, thread 2]) _
      ⟨[], _, [], nofun, Json.written_compact hplain, nofun, rfl⟩).2 ?_ ?_
    · exact .repeated _ _ "thread" (by decide) (by decide)
    · intro value hvalue
      exact hvalue

end Wire

end InterruptStress
