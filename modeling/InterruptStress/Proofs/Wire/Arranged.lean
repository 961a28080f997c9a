import InterruptStress.Proofs.Wire.Lawful

/-!
# Rearranged documents

Two parties need not agree on the text of a message.  In `Json.Arranged` the members of every object
stand in any order, members of given names are left out, and plain members of names that an object
does not know are put in; in `Json.Flawed` some object lacks a member that it cannot do without, or
has one that it knows twice.

What a record's reader finds in the first (`fields?_arranged`) is what was written, itself
rearranged; in the second it finds nothing, or a field that cannot be read (`bind_fields?_flawed`).
A message that is rearranged or flawed is one whose fields are, since its type is found wherever it
stands (`message?_arranged`, `bind_message?_flawed`).
-/

namespace InterruptStress.Json

/-- The members that can be done without. -/
def dispensable : List String := ["report", "failure", "interrupts_sent"]

mutual

/-- A document whose objects have their members in any order, without those of some names, and with
plain members of names that they do not know. -/
inductive Arranged (omitted : List String) : Json → Json → Prop where
  | leaf (j : Json) (hleaf : ∀ members, j ≠ .obj members) : Arranged omitted j j
  | obj (members kept inserted members' : List (Option String × Json))
      (hkept : ArrangedMembers omitted members kept)
      (hinserted : ∀ m ∈ inserted, m.1.isSome = true ∧ m.1 ∉ members.map Prod.fst ∧ m.2.IsPlain)
      (hperm : members'.Perm (kept ++ inserted)) : Arranged omitted (.obj members) (.obj members')

/-- The members of an object that are left, each of them rearranged. -/
inductive ArrangedMembers (omitted : List String) :
    List (Option String × Json) → List (Option String × Json) → Prop where
  | nil : ArrangedMembers omitted [] []
  | keep (name : String) (value value' : Json) (members kept : List (Option String × Json))
      (hname : name ∉ omitted) (hvalue : Arranged omitted value value')
      (hrest : ArrangedMembers omitted members kept) :
      ArrangedMembers omitted ((some name, value) :: members) ((some name, value') :: kept)
  | drop (name : String) (value : Json) (members kept : List (Option String × Json))
      (hname : name ∈ omitted) (hrest : ArrangedMembers omitted members kept) :
      ArrangedMembers omitted ((some name, value) :: members) kept

end

/-- An object in a document lacks a member, or has one twice, whatever else it has. -/
inductive Flawed : Json → Json → Prop where
  | lacking (members members' : List (Option String × Json)) (name : String)
      (hknown : some name ∈ members.map Prod.fst) (hneeded : name ∉ dispensable)
      (hlacking : some name ∉ members'.map Prod.fst) : Flawed (.obj members) (.obj members')
  | repeated (members members' : List (Option String × Json)) (name : String)
      (hknown : some name ∈ members.map Prod.fst)
      (htwice : 2 ≤ (members'.map Prod.fst).count (some name)) :
      Flawed (.obj members) (.obj members')
  | within (members members' : List (Option String × Json)) (name : String) (value value' : Json)
      (hmem : (some name, value) ∈ members) (hmem' : (some name, value') ∈ members')
      (hvalue : Flawed value value') : Flawed (.obj members) (.obj members')

/-- The type that a message gives, if it gives one, is that of another. -/
def SameType : Json → Json → Prop
  | .obj members, .obj members' => ∀ value,
      lookup typeKey members' = some (some value) → lookup typeKey members = some (some value)
  | _, _ => True

variable {omitted names : List String} {name : String} {value : Json} {j j' : Json}
  {members members' kept : List (Option String × Json)} {fields : List (String × Json)}

theorem null_ne_obj (members : List (Option String × Json)) : null ≠ obj members := nofun

theorem ofString_ne_obj (s : String) (members : List (Option String × Json)) :
    ofString s ≠ obj members := nofun

theorem eq_of_arranged (h : Arranged omitted j j') (hleaf : ∀ members, j ≠ .obj members) :
    j' = j := by
  cases h with
  | leaf => rfl
  | obj members => exact absurd rfl (hleaf members)

theorem not_flawed (hleaf : ∀ members, j ≠ .obj members) : ¬ Flawed j j' := by
  rintro (⟨members⟩ | ⟨members⟩ | ⟨members⟩) <;> exact hleaf members rfl

theorem ne_null_of_arranged (h : Arranged omitted j j') (hj : j ≠ .null) : j' ≠ .null := by
  cases h with
  | leaf => exact hj
  | obj => exact nofun

theorem ne_null_of_flawed (h : Flawed j j') : j' ≠ .null := by
  cases h <;> exact nofun

/-! ## Plain documents -/

theorem membersPlain_iff :
    MembersPlain members ↔ ∀ m ∈ members, m.1.isSome = true ∧ m.2.IsPlain := by
  induction members with
  | nil => simp [MembersPlain]
  | cons m members ih => simp [MembersPlain, ih, and_assoc]

mutual

theorem isPlain_of_arranged : ∀ {j j' : Json}, Arranged omitted j j' → j.IsPlain → j'.IsPlain
  | _, _, .leaf _ _, hplain => hplain
  | _, _, .obj _ _ _ _ hkept hinserted hperm, hplain => by
    rw [IsPlain] at hplain ⊢
    have hleft := membersPlain_iff.mp (membersPlain_of_arranged hkept hplain)
    refine membersPlain_iff.mpr fun m hm => ?_
    rcases List.mem_append.mp (hperm.mem_iff.mp hm) with hm | hm
    · exact hleft m hm
    · exact ⟨(hinserted m hm).1, (hinserted m hm).2.2⟩

theorem membersPlain_of_arranged : ∀ {members kept : List (Option String × Json)},
    ArrangedMembers omitted members kept → MembersPlain members → MembersPlain kept
  | _, _, .nil, hplain => hplain
  | _, _, .keep _ _ _ _ _ _ hvalue hrest, hplain => by
    rw [MembersPlain] at hplain ⊢
    exact ⟨rfl, isPlain_of_arranged hvalue hplain.2.1, membersPlain_of_arranged hrest hplain.2.2⟩
  | _, _, .drop _ _ _ _ _ hrest, hplain => by
    rw [MembersPlain] at hplain
    exact membersPlain_of_arranged hrest hplain.2.2

end

/-! ## Looking up members -/

/-- What is found of a member. -/
inductive Found (omitted : List String) (name : String) (value : Json) : Option Json → Prop where
  | omitted (hname : name ∈ omitted) : Found omitted name value none
  | kept (value' : Json) (hname : name ∉ omitted) (hvalue : Arranged omitted value value') :
      Found omitted name value (some value')

/-- A member that cannot be read is found. -/
inductive Faulty (name : String) (value : Json) : Option Json → Prop where
  | lacking (hneeded : name ∉ dispensable) : Faulty name value none
  | within (value' : Json) (hvalue : Flawed value value') : Faulty name value (some value')

theorem lookup_eq_some_iff {slot : Option Json} :
    lookup name members = some slot ↔
      members.filter (fun m => m.1 == some name) = slot.toList.map (some name, ·) := by
  have hnames : ∀ m ∈ members.filter (fun m => m.1 == some name), m.1 = some name := by
    intro m hm
    simpa using (List.mem_filter.mp hm).2
  unfold lookup
  split
  · next hnone => cases slot <;> simp [hnone]
  · next m hone =>
    obtain ⟨key, value⟩ := m
    obtain rfl : key = some name := hnames (key, value) (hone ▸ List.mem_cons_self)
    cases slot <;> simp [hone]
  · next hnone hone =>
    refine iff_of_false nofun fun h => ?_
    cases slot with
    | none => exact hnone h
    | some value => exact hone _ h

theorem lookup_of_not_mem (h : some name ∉ members.map Prod.fst) :
    lookup name members = some none := by
  refine lookup_eq_some_iff.mpr (List.filter_eq_nil_iff.mpr fun m hm hname => h ?_)
  rw [← eq_of_beq hname]
  exact List.mem_map_of_mem hm

theorem lookup_of_mem_of_some {slot : Option Json} (h : lookup name members = some slot)
    (hmem : (some name, value) ∈ members) : slot = some value := by
  have hfound : (some name, value) ∈ slot.toList.map (some name, ·) := by
    rw [← lookup_eq_some_iff.mp h]
    exact List.mem_filter.mpr ⟨hmem, beq_self_eq_true _⟩
  cases slot <;> simp_all

/-- A member that is found does not occur twice. -/
theorem lookup_of_twice (h : 2 ≤ (members.map Prod.fst).count (some name)) :
    lookup name members = none := by
  refine Option.eq_none_iff_forall_ne_some.mpr fun slot hslot => ?_
  have hlength : (members.filter fun m => m.1 == some name).length =
      (members.map Prod.fst).count (some name) := by
    rw [← List.countP_eq_length_filter, List.count, List.countP_map]
    rfl
  rw [lookup_eq_some_iff.mp hslot, List.length_map] at hlength
  have hone : slot.toList.length ≤ 1 := by cases slot <;> simp
  omega

/-- What is left of the members of an object are members of the object. -/
theorem ArrangedMembers.named : ∀ {members kept : List (Option String × Json)},
    ArrangedMembers omitted members kept →
      ∀ m ∈ kept, m.1.isSome = true ∧ m.1 ∈ members.map Prod.fst
  | _, _, .nil => nofun
  | _, _, .keep _ _ _ _ _ _ _ hrest =>
    List.forall_mem_cons.mpr ⟨⟨rfl, List.mem_cons_self⟩, fun m hm =>
      ⟨(hrest.named m hm).1, List.mem_cons_of_mem _ (hrest.named m hm).2⟩⟩
  | _, _, .drop _ _ _ _ _ hrest => fun m hm =>
      ⟨(hrest.named m hm).1, List.mem_cons_of_mem _ (hrest.named m hm).2⟩

theorem ArrangedMembers.lookup_of_not_mem (h : ArrangedMembers omitted members kept)
    (hname : some name ∉ members.map Prod.fst) : kept.filter (fun m => m.1 == some name) = [] := by
  refine List.filter_eq_nil_iff.mpr fun m hm hkey => hname ?_
  rw [← eq_of_beq hkey]
  exact (h.named m hm).2

/-- Each member is found among those that are left as often as it is to be. -/
theorem ArrangedMembers.found : ∀ {members kept : List (Option String × Json)},
    ArrangedMembers omitted members kept → (members.map Prod.fst).Nodup →
      (some name, value) ∈ members → ∃ slot, Found omitted name value slot ∧
        kept.filter (fun m => m.1 == some name) = slot.toList.map (some name, ·)
  | _, _, .nil, _, hmem => nomatch hmem
  | _, _, .keep other value₁ value' members kept hother hvalue hrest, hnodup, hmem => by
    obtain ⟨hfresh, hnodup⟩ := List.nodup_cons.mp hnodup
    rcases List.mem_cons.mp hmem with heq | hmem
    · obtain ⟨hname, rfl⟩ := Prod.mk.inj heq
      obtain rfl := Option.some.inj hname
      refine ⟨some value', .kept value' hother hvalue, ?_⟩
      rw [List.filter_cons_of_pos (by simp), hrest.lookup_of_not_mem hfresh]
      rfl
    · have hlisted : some name ∈ members.map Prod.fst := List.mem_map_of_mem hmem
      have hne : some other ≠ some name := fun h => hfresh (h ▸ hlisted)
      rw [List.filter_cons_of_neg (by simpa using hne)]
      exact hrest.found hnodup hmem
  | _, _, .drop other value₁ members kept hother hrest, hnodup, hmem => by
    obtain ⟨hfresh, hnodup⟩ := List.nodup_cons.mp hnodup
    rcases List.mem_cons.mp hmem with heq | hmem
    · obtain ⟨hname, rfl⟩ := Prod.mk.inj heq
      obtain rfl := Option.some.inj hname
      exact ⟨none, .omitted hother, hrest.lookup_of_not_mem hfresh⟩
    · exact hrest.found hnodup hmem

/-- Members that are put in hide none that is known, and the order does not matter. -/
theorem lookup_arranged {inserted : List (Option String × Json)}
    (hkept : ArrangedMembers omitted members kept)
    (hinserted : ∀ m ∈ inserted, m.1.isSome = true ∧ m.1 ∉ members.map Prod.fst ∧ m.2.IsPlain)
    (hperm : members'.Perm (kept ++ inserted)) (hnodup : (members.map Prod.fst).Nodup)
    (hmem : (some name, value) ∈ members) :
    ∃ slot, Found omitted name value slot ∧ lookup name members' = some slot := by
  obtain ⟨slot, hfound, hfilter⟩ := hkept.found hnodup hmem
  refine ⟨slot, hfound, lookup_eq_some_iff.mpr ?_⟩
  have hunknown : inserted.filter (fun m => m.1 == some name) = [] := by
    refine List.filter_eq_nil_iff.mpr fun m hm hkey => (hinserted m hm).2.1 ?_
    rw [eq_of_beq hkey]
    exact List.mem_map_of_mem hmem
  have hsame := hperm.filter fun m => m.1 == some name
  rw [List.filter_append, hunknown, List.append_nil, hfilter] at hsame
  cases slot with
  | none => exact List.perm_nil.mp hsame
  | some value => exact List.perm_singleton.mp hsame

/-! ## Records -/

theorem map_fst_record : (fields.map fun m => (some m.1, m.2)).map Prod.fst =
    (fields.map Prod.fst).map some := by
  simp

theorem nodup_record (fields : List (String × Json)) (hnodup : (fields.map Prod.fst).Nodup) :
    ((fields.map fun m => (some m.1, m.2)).map Prod.fst).Nodup := by
  rw [map_fst_record]
  exact hnodup.map fun _ _ => Option.some.inj

theorem fields?_obj (hnamed : ∀ m ∈ members, m.1.isSome = true) (names : List String) :
    (obj members).fields? names = names.mapM (lookup · members) :=
  if_pos (List.all_eq_true.mpr hnamed)

theorem mapM_eq_map {slot : String → Option Json} {read : String → Option (Option Json)}
    (h : ∀ name ∈ names, read name = some (slot name)) :
    names.mapM read = some (names.map slot) := by
  induction names with
  | nil => rfl
  | cons name names ih =>
    obtain ⟨hname, hnames⟩ := List.forall_mem_cons.mp h
    rw [List.mapM_cons, hname, ih hnames]
    rfl

theorem isSome_of_mapM {read : String → Option (Option Json)} {slots : List (Option Json)}
    (h : names.mapM read = some slots) : ∀ name ∈ names, (read name).isSome = true := by
  induction names generalizing slots with
  | nil => nofun
  | cons name names ih =>
    rw [List.mapM_cons] at h
    obtain ⟨slot, hslot, hrest⟩ := Option.bind_eq_some_iff.mp h
    obtain ⟨others, hothers, -⟩ := Option.bind_eq_some_iff.mp hrest
    exact List.forall_mem_cons.mpr ⟨by rw [hslot]; rfl, ih hothers⟩

/-- A record's reader finds in a rearranged object what is left of each field. -/
theorem fields?_arranged (names : List String) (h : Arranged omitted (record fields) j)
    (hnames : fields.map Prod.fst = names) (hnodup : names.Nodup) :
    ∃ slot : String → Option Json, j.fields? names = some (names.map slot) ∧
      ∀ m ∈ fields, Found omitted m.1 m.2 (slot m.1) := by
  subst hnames
  rw [record] at h
  cases h with
  | leaf _ hleaf => exact absurd rfl (hleaf _)
  | obj _ kept inserted members' hkept hinserted hperm =>
    have hlookup (m : String × Json) (hm : m ∈ fields) : ∃ slot, Found omitted m.1 m.2 slot ∧
        lookup m.1 members' = some slot :=
      lookup_arranged hkept hinserted hperm (nodup_record fields hnodup)
        (List.mem_map_of_mem (f := fun m => (some m.1, m.2)) hm)
    have hnamed (m : Option String × Json) (hm : m ∈ members') : m.1.isSome = true := by
      rcases List.mem_append.mp (hperm.mem_iff.mp hm) with hm | hm
      · exact (hkept.named m hm).1
      · exact (hinserted m hm).1
    refine ⟨fun name => (lookup name members').join, ?_, fun m hm => ?_⟩
    · rw [fields?_obj hnamed]
      refine mapM_eq_map fun name hname => ?_
      obtain ⟨m, hm, rfl⟩ := List.mem_map.mp hname
      obtain ⟨slot, -, hslot⟩ := hlookup m hm
      rw [hslot, Option.join_some]
    · obtain ⟨slot, hfound, hslot⟩ := hlookup m hm
      simpa [hslot] using hfound

theorem Flawed.eq_obj (h : Flawed j j') :
    ∃ members members', j = .obj members ∧ j' = .obj members' := by
  cases h <;> exact ⟨_, _, rfl, rfl⟩

/-- What a flawed object gives for its members, if it gives something for each, cannot be read. -/
theorem Flawed.faulty {slot : String → Option Json} (h : Flawed (.obj members) (.obj members'))
    (hslot : ∀ m ∈ members, ∀ name, m.1 = some name → lookup name members' = some (slot name)) :
    ∃ name value, (some name, value) ∈ members ∧ Faulty name value (slot name) := by
  cases h with
  | lacking _ _ name hknown hneeded hlacking =>
    obtain ⟨m, hm, hname⟩ := List.mem_map.mp hknown
    have hnone := Option.some.inj ((hslot m hm name hname).symm.trans (lookup_of_not_mem hlacking))
    exact ⟨name, m.2, hname ▸ hm, hnone ▸ .lacking hneeded⟩
  | repeated _ _ name hknown htwice =>
    obtain ⟨m, hm, hname⟩ := List.mem_map.mp hknown
    have htaken := hslot m hm name hname
    rw [lookup_of_twice htwice] at htaken
    cases htaken
  | within _ _ name value value' hmem hmem' hvalue =>
    have hsome := lookup_of_mem_of_some (hslot _ hmem name rfl) hmem'
    exact ⟨name, value, hmem, hsome ▸ .within value' hvalue⟩

/-- What is read of a flawed object is nothing, if it is nothing of a field that cannot be read. -/
theorem bind_fields?_flawed {β : Type} {read : List (Option Json) → Option β} (names : List String)
    (h : Flawed (record fields) j) (hnames : fields.map Prod.fst = names)
    (hread : ∀ slot name value, (name, value) ∈ fields → Faulty name value (slot name) →
      read (names.map slot) = none) : (j.fields? names).bind read = none := by
  subst hnames
  obtain ⟨_, members', -, rfl⟩ := h.eq_obj
  refine Option.bind_eq_none_iff.mpr fun slots hslots => ?_
  have hmapM : (fields.map Prod.fst).mapM (lookup · members') = some slots := by
    rw [fields?] at hslots
    split at hslots
    · exact hslots
    · cases hslots
  have hlookup : ∀ name ∈ fields.map Prod.fst,
      lookup name members' = some (lookup name members').join := by
    intro name hname
    obtain ⟨slot, hslot⟩ := Option.isSome_iff_exists.mp (isSome_of_mapM hmapM name hname)
    rw [hslot, Option.join_some]
  obtain rfl : (fields.map Prod.fst).map (fun name => (lookup name members').join) = slots :=
    Option.some.inj ((mapM_eq_map hlookup).symm.trans hmapM)
  have hfound : ∀ m ∈ fields.map fun m => (some m.1, m.2), ∀ name, m.1 = some name →
      lookup name members' = some (lookup name members').join := by
    intro m hm name hname
    obtain ⟨field, hfield, rfl⟩ := List.mem_map.mp hm
    obtain rfl := Option.some.inj hname
    exact hlookup field.1 (List.mem_map_of_mem hfield)
  obtain ⟨name, value, hmem, hfaulty⟩ := h.faulty hfound
  obtain ⟨field, hfield, heq⟩ := List.mem_map.mp hmem
  obtain ⟨hname, rfl⟩ := Prod.mk.inj heq
  obtain rfl := Option.some.inj hname
  exact hread _ field.1 field.2 hfield hfaulty

/-! ## Messages -/

variable {type : String} {ctx : Context}

theorem isPlain_message (hplain : ∀ m ∈ fields, m.2.IsPlain) : (message type fields).IsPlain := by
  refine isPlain_record (List.forall_mem_cons.mpr ⟨?_, hplain⟩)
  rw [ofString, IsPlain]
  rfl

/-- Without the member of its type, a rearranged message is rearranged. -/
theorem arranged_withoutType {inserted : List (Option String × Json)} (htype : typeKey ∉ omitted)
    (hfresh : some typeKey ∉ members.map Prod.fst)
    (hkept : ArrangedMembers omitted ((some typeKey, value) :: members) kept)
    (hinserted : ∀ m ∈ inserted, m.1.isSome = true ∧
      m.1 ∉ ((some typeKey, value) :: members).map Prod.fst ∧ m.2.IsPlain)
    (hperm : members'.Perm (kept ++ inserted)) :
    Arranged omitted (.obj members) (.obj (members'.filter fun m => m.1 != some typeKey)) := by
  cases hkept with
  | drop _ _ _ _ hname => exact absurd hname htype
  | keep _ _ value' _ kept _ _ hrest =>
    have hothers : kept.filter (fun m => m.1 != some typeKey) = kept :=
      List.filter_eq_self.mpr fun m hm => bne_iff_ne.mpr fun hkey =>
        hfresh (hkey ▸ (hrest.named m hm).2)
    have hunknown : inserted.filter (fun m => m.1 != some typeKey) = inserted :=
      List.filter_eq_self.mpr fun m hm => bne_iff_ne.mpr fun hkey =>
        (hinserted m hm).2.1 (hkey ▸ List.mem_cons_self)
    refine .obj members kept inserted _ hrest (fun m hm => ?_) ?_
    · obtain ⟨hnamed, hnew, hplain⟩ := hinserted m hm
      exact ⟨hnamed, fun hold => hnew (List.mem_cons_of_mem _ hold), hplain⟩
    · have hsame := hperm.filter fun m => m.1 != some typeKey
      rwa [List.filter_append, hunknown, List.filter_cons_of_neg (by simp), hothers] at hsame

/-- A message that is rearranged has its type somewhere, and its fields, rearranged, around it. -/
theorem message?_arranged (h : Arranged omitted (message type fields) j)
    (hnodup : (typeKey :: fields.map Prod.fst).Nodup) (htype : typeKey ∉ omitted)
    (hplain : ∀ m ∈ fields, m.2.IsPlain) (hdepth : ctx.level + j.depth ≤ maxDepth) :
    ∃ rest, j.message? ctx = some (type, rest) ∧ Arranged omitted (record fields) rest := by
  have hloadable := isLoadable_of_isPlain (isPlain_of_arranged h (isPlain_message hplain))
  rw [message, record] at h
  cases h with
  | leaf _ hleaf => exact absurd rfl (hleaf _)
  | obj _ kept inserted members' hkept hinserted hperm =>
    have hrecord := nodup_record ((typeKey, ofString type) :: fields) hnodup
    obtain ⟨slot, hfound, hslot⟩ := lookup_arranged hkept hinserted hperm hrecord List.mem_cons_self
    have hlookup : lookup typeKey members' = some (some (ofString type)) := by
      cases hfound with
      | omitted hname => exact absurd hname htype
      | kept value' _ hvalue => rw [hslot, eq_of_arranged hvalue (ofString_ne_obj type)]
    refine ⟨.obj (members'.filter fun m => m.1 != some typeKey), ?_,
      arranged_withoutType htype (List.nodup_cons.mp hrecord).1 hkept hinserted hperm⟩
    rw [message?, if_pos ⟨hdepth, hloadable⟩]
    simp only [hlookup, ofString]

/-- A flawed message that gives its type once is flawed elsewhere. -/
theorem Flawed.withoutType {given : Json}
    (h : Flawed (.obj ((some typeKey, value) :: members)) (.obj members'))
    (hvalue : ∀ members, value ≠ .obj members) (hfresh : some typeKey ∉ members.map Prod.fst)
    (hgiven : lookup typeKey members' = some (some given)) :
    Flawed (.obj members) (.obj (members'.filter fun m => m.1 != some typeKey)) := by
  cases h with
  | lacking _ _ name hknown hneeded hlacking =>
    rcases List.mem_cons.mp hknown with hname | hknown
    · obtain rfl := Option.some.inj hname
      simp [lookup_of_not_mem hlacking] at hgiven
    · refine .lacking _ _ name hknown hneeded fun hmem => hlacking ?_
      obtain ⟨m, hm, hname⟩ := List.mem_map.mp hmem
      exact hname ▸ List.mem_map_of_mem (List.mem_filter.mp hm).1
  | repeated _ _ name hknown htwice =>
    rcases List.mem_cons.mp hknown with hname | hknown
    · obtain rfl := Option.some.inj hname
      simp [lookup_of_twice htwice] at hgiven
    · have hne : some name ≠ some typeKey := fun h => hfresh (h ▸ hknown)
      have hothers : (members'.filter fun m => m.1 != some typeKey).map Prod.fst =
          (members'.map Prod.fst).filter (· != some typeKey) := by
        rw [List.filter_map]
        rfl
      refine .repeated _ _ name hknown ?_
      rwa [hothers, List.count_filter (by simpa using hne)]
  | within _ _ name value' given' hmem hmem' hflawed =>
    rcases List.mem_cons.mp hmem with heq | hmem
    · obtain ⟨-, rfl⟩ := Prod.mk.inj heq
      exact absurd hflawed (not_flawed hvalue)
    · have hlisted : some name ∈ members.map Prod.fst := List.mem_map_of_mem hmem
      have hne : some name ≠ some typeKey := fun h => hfresh (h ▸ hlisted)
      exact .within _ _ name value' given' hmem
        (List.mem_filter.mpr ⟨hmem', by simpa using hne⟩) hflawed

/-- What is read of a flawed message of the same type is nothing, if it is nothing of flawed
fields. -/
theorem bind_message?_flawed {β : Type} {read : String × Json → Option β}
    (h : Flawed (message type fields) j) (hsame : SameType (message type fields) j)
    (hnodup : (typeKey :: fields.map Prod.fst).Nodup)
    (hread : ∀ rest, Flawed (record fields) rest → read (type, rest) = none) :
    (j.message? ctx).bind read = none := by
  obtain ⟨_, members', -, rfl⟩ := h.eq_obj
  refine Option.bind_eq_none_iff.mpr fun found hfound => ?_
  obtain ⟨type', hlookup, rfl⟩ : ∃ type', lookup typeKey members' = some (some (ofString type')) ∧
      found = (type', .obj (members'.filter fun m => m.1 != some typeKey)) := by
    simp only [message?] at hfound
    split at hfound
    · split at hfound
      · next type' hlookup => exact ⟨type', hlookup, (Option.some.inj hfound).symm⟩
      · cases hfound
    · cases hfound
  have hown : lookup typeKey (((typeKey, ofString type) :: fields).map fun m => (some m.1, m.2)) =
      some (some (ofString type)) := by
    refine lookup_of_mem ?_ List.mem_cons_self
    exact hnodup
  obtain rfl : type' = type := by
    have heq := (hsame _ hlookup).symm.trans hown
    simpa [ofString] using heq
  have hrecord := nodup_record ((typeKey, ofString type') :: fields) hnodup
  exact hread _ (h.withoutType (ofString_ne_obj type') (List.nodup_cons.mp hrecord).1 hlookup)

end InterruptStress.Json
