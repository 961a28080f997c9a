import InterruptStress.Json.Wire
import InterruptStress.Proofs.Json.Range

/-!
# Types that are read back

A type is lawful on the wire when a value is read back from the document that is written of it,
wherever that document stands.  Plain values are lawful, an object with all fields of a record in
it gives the fields back, and so lawfulness goes from the fields of a record to the record.
Messages are read as a whole before they are read as a type, for which they have to be plain and
not too deep (`Json.message?_message`).
-/

namespace InterruptStress

/-- A type whose values are read back, in every context. -/
class Wire.Lawful (α : Type) [Wire α] : Prop where
  plain (a : α) : (Wire.toJson a).IsPlain
  /-- A value is not written as an absent one is. -/
  present (a : α) : Wire.toJson a ≠ .null
  read (ctx : Json.Context) (a : α) : Wire.ofJson? ctx (Wire.toJson a) = some a

namespace Wire

variable {α : Type} [Wire α]

/-- What is written compactly is decoded if the document is read back. -/
theorem decode?_encode_of_read {a : α} (hplain : (Wire.toJson a).IsPlain)
    (hread : Wire.ofJson? .top (Wire.toJson a) = some a) : decode? (encode a) = some a := by
  rw [decode?, encode, Json.ofText?, Json.toText, String.toList_ofList, Json.read?_compact hplain]
  exact hread

theorem decode?_encode [Lawful α] (a : α) : decode? (encode a) = some a :=
  decode?_encode_of_read (Lawful.plain a) (Lawful.read .top a)

end Wire

namespace Json

/-! ## Fields -/

section Fields

variable {α : Type} [Wire α] [Wire.Lawful α]

theorem required_toJson (ctx : Context) (a : α) : required ctx (some (Wire.toJson a)) = some a :=
  Wire.Lawful.read ctx a

theorem optional_toJson (ctx : Context) (a : Option α) :
    optional ctx (some (Wire.toJson a)) = some a := by
  cases a with
  | none => rfl
  | some a =>
    have hread : (Wire.ofJson? ctx (Wire.toJson a)).map some = some (some a) := by
      rw [Wire.Lawful.read]
      rfl
    simp only [optional, Wire.ofJson?, Wire.toJson]
    split
    · next hnull => exact absurd hnull (Wire.Lawful.present a)
    · exact hread

theorem isPlain_toJson_option (a : Option α) : (Wire.toJson a).IsPlain := by
  cases a with
  | none => trivial
  | some a => exact Wire.Lawful.plain a

end Fields

/-! ## Records -/

variable {members : List (String × Json)}

/-- A field's name finds its own member. -/
theorem lookup_of_mem (hnodup : (members.map Prod.fst).Nodup) {name : String} {value : Json}
    (hmem : (name, value) ∈ members) :
    lookup name (members.map fun m => (some m.1, m.2)) = some (some value) := by
  have hfilter : (members.map fun m => (some m.1, m.2)).filter (fun m => m.1 == some name) =
      [(some name, value)] := by
    induction members with
    | nil => cases hmem
    | cons member members ih =>
      obtain ⟨hfresh, hnodup⟩ := List.nodup_cons.mp hnodup
      rw [List.map_cons]
      rcases List.mem_cons.mp hmem with rfl | hmem
      · rw [List.filter_cons_of_pos (by simp), List.filter_eq_nil_iff.mpr]
        intro m hm
        obtain ⟨other, hother, rfl⟩ := List.mem_map.mp hm
        have hlisted : other.1 ∈ members.map Prod.fst := List.mem_map_of_mem hother
        have hne : other.1 ≠ name := fun h => hfresh (h ▸ hlisted)
        simpa using hne
      · have hlisted : name ∈ members.map Prod.fst := List.mem_map_of_mem hmem
        have hne : member.1 ≠ name := fun h => hfresh (h ▸ hlisted)
        rw [List.filter_cons_of_neg (by simpa using hne)]
        exact ih hnodup hmem
  rw [lookup, hfilter]

theorem mapM_lookup {names : List (String × Json)} {found : List (Option String × Json)}
    (h : ∀ m ∈ names, lookup m.1 found = some (some m.2)) :
    (names.map Prod.fst).mapM (lookup · found) = some (names.map fun m => some m.2) := by
  induction names with
  | nil => rfl
  | cons m names ih =>
    obtain ⟨hm, hnames⟩ := List.forall_mem_cons.mp h
    rw [List.map_cons, List.mapM_cons, hm, ih hnames]
    rfl

/-- A record's own object gives all of its fields. -/
theorem fields?_record {names : List String} (hnames : members.map Prod.fst = names)
    (hnodup : names.Nodup) :
    (record members).fields? names = some (members.map fun m => some m.2) := by
  subst hnames
  have hnamed : (members.map fun m => (some m.1, m.2)).all (fun m => m.1.isSome) = true := by
    simp
  rw [record, fields?, if_pos hnamed]
  exact mapM_lookup fun m hm => lookup_of_mem hnodup hm

theorem closedFields?_record {names : List String} (hnames : members.map Prod.fst = names)
    (hnodup : names.Nodup) :
    (record members).closedFields? names = some (members.map fun m => some m.2) := by
  have hknown : (members.map fun m => (some m.1, m.2)).all
      (fun m => m.1.any (names.contains ·)) = true := by
    simp only [List.all_map, List.all_eq_true, Function.comp_apply, Option.any_some,
      List.contains_iff_mem]
    exact fun m hm => hnames ▸ List.mem_map_of_mem hm
  rw [record, closedFields?, if_pos hknown]
  exact fields?_record hnames hnodup

theorem isPlain_record (h : ∀ m ∈ members, m.2.IsPlain) : (record members).IsPlain := by
  rw [record, IsPlain]
  induction members with
  | nil => exact trivial
  | cons m members ih =>
    obtain ⟨hm, hmembers⟩ := List.forall_mem_cons.mp h
    rw [List.map_cons, MembersPlain]
    exact ⟨rfl, hm, ih hmembers⟩

theorem depth_record_le {k : Nat} (h : ∀ m ∈ members, m.2.depth ≤ k) :
    (record members).depth ≤ k + 1 := by
  rw [record, depth]
  apply Nat.succ_le_succ
  induction members with
  | nil => exact Nat.zero_le k
  | cons m members ih =>
    obtain ⟨hm, hmembers⟩ := List.forall_mem_cons.mp h
    rw [List.map_cons, membersDepth]
    exact Nat.max_le.mpr ⟨hm, ih hmembers⟩

/-! ## Messages -/

/-- A message that is written is one of its type, with its fields as a record. -/
theorem message?_message {ctx : Context} {type : String} {fields : List (String × Json)}
    (hdepth : ctx.level + (message type fields).depth ≤ maxDepth)
    (hplain : ∀ m ∈ fields, m.2.IsPlain) (htype : ∀ m ∈ fields, m.1 ≠ typeKey) :
    (message type fields).message? ctx = some (type, record fields) := by
  have hloadable : (message type fields).isLoadable = true := by
    refine isLoadable_of_isPlain (isPlain_record (List.forall_mem_cons.mpr ⟨?_, hplain⟩))
    rw [ofString, IsPlain]
    rfl
  have hothers (m : Option String × Json) (hm : m ∈ fields.map fun m => (some m.1, m.2)) :
      m.1 ≠ some typeKey := by
    obtain ⟨field, hfield, rfl⟩ := List.mem_map.mp hm
    exact fun h => htype field hfield (Option.some.inj h)
  have hfound : lookup typeKey ((some typeKey, ofString type) ::
      fields.map fun m => (some m.1, m.2)) = some (some (ofString type)) := by
    rw [lookup, List.filter_cons_of_pos (by simp), List.filter_eq_nil_iff.mpr]
    exact fun m hm => by simpa using hothers m hm
  have hrest : ((some typeKey, ofString type) :: fields.map fun m => (some m.1, m.2)).filter
      (fun m => m.1 != some typeKey) = fields.map fun m => (some m.1, m.2) := by
    rw [List.filter_cons_of_neg (by simp), List.filter_eq_self.mpr]
    exact fun m hm => by simpa using hothers m hm
  have hobj : message type fields =
      .obj ((some typeKey, ofString type) :: fields.map fun m => (some m.1, m.2)) := rfl
  rw [hobj] at hdepth hloadable ⊢
  rw [message?, if_pos ⟨hdepth, hloadable⟩, hfound, hrest]
  rfl

end Json

end InterruptStress
