import InterruptStress.CommandLine.Arguments
import Mathlib.Data.List.TakeWhile

/-!
# Options that are given in turn

Two arguments, an option's name and a text behind it, are read as the option's value.  The value
of an option is settled only when the next option begins, so the statement about a whole command
line is about what would be settled at its end (`Level.take_options`).  That needs each option to
be known to the level, its text to be readable and not to begin with a dash, and no option to be
given twice.
-/

namespace InterruptStress.CommandLine

variable {V : Type}

/-- An option with the text that stands behind it and the value that it stands for. -/
structure Setting (V : Type) where
  long : String
  text : String
  value : V

namespace Setting

/-- The two arguments that give an option. -/
def arguments (s : Setting V) : List String := ["--" ++ s.long, s.text]

end Setting

/-- A level knows an option and reads its text as its value.  The name is none that the mark
between options and other arguments, or a value attached to a name, could be taken for. -/
structure Level.Reads (l : Level V) (s : Setting V) : Prop where
  long_ne : s.long.toList ≠ []
  unattached : ∀ c ∈ s.long.toList, c ≠ '='
  known : ∃ short read, l.options.find? (fun o => o.long == s.long) =
    some ⟨s.long, short, .value read⟩ ∧ read s.text = .ok s.value
  /-- The text is not taken for an option. -/
  undashed : s.text.toList.head? ≠ some '-'
  unnamed : l.subcommands.contains ("--" ++ s.long) = false

namespace Given

/-- What is settled once the option that is open has its text. -/
theorem settle_of_pending {values : List (String × V)} (switches : List String) {p : Pending V}
    {text : String} {v : V} (htext : p.value = some text) (hread : p.read text = .ok v)
    (hnew : p.long ∉ values.map Prod.fst) :
    (⟨values, switches, some p⟩ : Given V).settle = .ok ⟨values ++ [(p.long, v)], switches, none⟩ := by
  have hnone : values.lookup p.long = none := by
    rw [List.lookup_eq_none_iff]
    intro entry hentry
    rw [bne_iff_ne]
    rintro hsame
    exact hnew (List.mem_map.mpr ⟨entry, hentry, hsame.symm⟩)
  simp [settle, take, value?, htext, hread, hnone, Except.map]

end Given

namespace Level
variable {l : Level V} {g settled : Given V} {s : Setting V} {rest : List String}

/-- An argument that names an option opens it. -/
theorem takeLong_of_reads {short : Option Char} {read : String → Except Refusal V}
    (hunattached : ∀ c ∈ s.long.toList, c ≠ '=')
    (hknown : l.options.find? (fun o => o.long == s.long) = some ⟨s.long, short, .value read⟩)
    (hsettled : g.settle = .ok settled) :
    l.takeLong g s.long.toList = .ok { settled with pending := some ⟨s.long, read, none⟩ } := by
  have hname : s.long.toList.takeWhile (· ≠ '=') = s.long.toList := by
    rw [List.takeWhile_eq_self_iff]
    intro c hc
    simpa using hunattached c hc
  have hattached : s.long.toList.dropWhile (· ≠ '=') = [] := by
    rw [List.dropWhile_eq_nil_iff]
    intro c hc
    simpa using hunattached c hc
  simp only [takeLong, hname, hattached, String.ofList_toList, hknown, Given.takeOption, hsettled]
  rfl

/-- A text without a dash in front goes to the option that waits. -/
theorem take_text (hwaiting : g.isWaiting = true) (hundashed : s.text.toList.head? ≠ some '-') :
    l.take g (s.text :: rest) = l.take (g.supply s.text) rest := by
  rw [take.eq_def]
  simp only [hwaiting, Bool.not_true, Bool.false_and, Bool.false_eq_true, if_false]
  split
  · simp_all
  · simp_all
  · simp_all
  · rfl

/-- An option and its text leave the option open with that text. -/
theorem take_option (rest : List String) (hreads : l.Reads s) (hsettled : g.settle = .ok settled) :
    ∃ read, read s.text = .ok s.value ∧
      l.take g (s.arguments ++ rest) =
        l.take { settled with pending := some ⟨s.long, read, some s.text⟩ } rest := by
  obtain ⟨short, read, hknown, hread⟩ := hreads.known
  refine ⟨read, hread, ?_⟩
  have hdashes : ("--" ++ s.long).toList = '-' :: '-' :: s.long.toList := by
    simp [String.toList_append]
  have hlong := takeLong_of_reads hreads.unattached hknown hsettled
  rw [Setting.arguments, List.cons_append, take.eq_def]
  simp only [hreads.unnamed, Bool.and_false, Bool.false_eq_true, if_false, hdashes]
  obtain ⟨c, name, hname⟩ := List.exists_cons_of_ne_nil hreads.long_ne
  rw [hname] at hlong ⊢
  simp only [hlong]
  have hwaiting :
      ({ settled with pending := some ⟨s.long, read, none⟩ } : Given V).isWaiting = true := rfl
  exact take_text hwaiting hreads.undashed

/-- Options that are given one after the other, each once, are all read as their values. -/
theorem take_options {settings : List (Setting V)} (hreads : ∀ s ∈ settings, l.Reads s)
    {values : List (String × V)} {switches : List String}
    (hnames : (values.map Prod.fst ++ settings.map Setting.long).Nodup)
    (hsettled : g.settle = .ok ⟨values, switches, none⟩) :
    ∃ given, l.take g (settings.flatMap Setting.arguments) = .ok (given, none) ∧
      given.settle =
        .ok ⟨values ++ settings.map (fun s => (s.long, s.value)), switches, none⟩ := by
  induction settings generalizing g values with
  | nil => exact ⟨g, rfl, by simpa using hsettled⟩
  | cons s settings ih =>
    obtain ⟨hs, hrest⟩ := List.forall_mem_cons.mp hreads
    obtain ⟨read, hread, htake⟩ := take_option _ hs hsettled
    have hnew : s.long ∉ values.map Prod.fst := by
      intro hmem
      exact (List.nodup_append.mp hnames).2.2 _ hmem _ (by simp) rfl
    have hopen := Given.settle_of_pending switches (p := ⟨s.long, read, some s.text⟩) rfl hread hnew
    obtain ⟨given, hgiven, hvalues⟩ := ih hrest (by simpa using hnames) hopen
    exact ⟨given, by rw [List.flatMap_cons, htake, hgiven], by simpa using hvalues⟩

end Level

end InterruptStress.CommandLine
