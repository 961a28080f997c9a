import InterruptStress.Proofs.Json.OneLine
import InterruptStress.Proofs.Text.LineEnds
import InterruptStress.Proofs.Wire.RoundTrip
import InterruptStress.Target.Pipe

/-!
# Messages between other lines

Every message is one line, from which it is read back (`Pipe.isLine_body`,
`Pipe.messageOfLine?_blanks`), and a line counts for itself whatever stands before and behind it
(`Pipe.events_cons`, `Pipe.commands_cons`).  So messages come in their order from between lines
that are none (`Pipe.events_of_interspersed`, `Pipe.commands_of_interspersed`).

Which lines are none shows when the blanks around a line and the carriage return at its end are
gone, and for commands only in lines of text: there are lines that are no events as they stand but
are passed on, and bytes that are no text keep commands back (`Pipe.raw_noise_counts`).
-/

namespace InterruptStress

open Text (LineEnds)

/-- A type whose values travel as lines: an object each, that is read back. -/
class Wire.Message (α : Type) [Wire α] : Prop where
  isObject (a : α) : ∃ members, Wire.toJson a = .obj members
  plain (a : α) : (Wire.toJson a).IsPlain
  decoded (a : α) : Wire.decode? (Wire.encode a) = some a

instance : Wire.Message TargetEvent where
  isObject _ := ⟨_, rfl⟩
  plain := TargetEvent.isPlain
  decoded := Wire.decode?_encode_event

instance : Wire.Message ControlCommand where
  isObject _ := ⟨_, rfl⟩
  plain := ControlCommand.isPlain
  decoded := Wire.decode?_encode_command

namespace Pipe

/-! ## One line -/

/-- A line of text, without its line feed. -/
structure IsLine (line : List UInt8) (text : List Char) : Prop where
  whole : LineEnds.bytes.lineFeed ∉ line
  valid : Text.ofBytes? line = some text

section Line

variable {α : Type} [Wire α]

/-- The bytes of a message, without the line feed. -/
def body (a : α) : List UInt8 := Text.toBytes (Wire.encode a).toList

theorem line_eq (a : α) : line a = body a ++ [LineEnds.bytes.lineFeed] := by
  rw [line, Text.toBytes_append]
  rfl

theorem messageOfLine?_eq (line : List UInt8) :
    (messageOfLine? line : Option α) =
      ((Text.ofBytes? line).map Text.trim).bind fun text => Wire.decode? (String.ofList text) := by
  rw [messageOfLine?, Option.bind_map]
  rfl

theorem messageOfLine?_chomp (line : List UInt8) :
    (messageOfLine? (LineEnds.bytes.chomp line) : Option α) = messageOfLine? line := by
  rw [messageOfLine?_eq, messageOfLine?_eq, Text.trim_ofBytes?_chomp]

theorem toList_encode (a : α) : (Wire.encode a).toList = (Wire.toJson a).compact :=
  String.toList_ofList

variable [Wire.Message α]

/-- No message is broken off by its own text. -/
theorem isLine_body (a : α) : IsLine (body a) (Wire.encode a).toList where
  whole := by
    rw [body, Text.lineFeed_mem_toBytes, toList_encode]
    exact Json.not_mem_of_isPrintable (Json.isPrintable_compact (Wire.Message.plain a)) (by decide)
  valid := Text.ofBytes?_toBytes _

/-- A message is read back from its line, with blanks around it too. -/
theorem messageOfLine?_blanks (a : α) (before after : List Char)
    (hbefore : ∀ c ∈ before, Text.isBlank c = true) (hafter : ∀ c ∈ after, Text.isBlank c = true) :
    messageOfLine? (Text.toBytes (before ++ ((Wire.encode a).toList ++ after))) = some a := by
  obtain ⟨members, hmembers⟩ := Wire.Message.isObject a
  have htrim : Text.trim (Wire.encode a).toList = (Wire.encode a).toList := by
    rw [toList_encode, hmembers, Json.trim_compact_obj]
  rw [messageOfLine?, Text.ofBytes?_toBytes, Option.bind_some, Text.trim_prepend hbefore,
    Text.trim_append hafter, htrim, String.ofList_toList, Wire.Message.decoded]

theorem messageOfLine?_body (a : α) : messageOfLine? (body a) = some a := by
  have hblanks := messageOfLine?_blanks a [] [] nofun nofun
  rwa [List.nil_append, List.append_nil] at hblanks

end Line

/-! ## A line before others -/

section Lines

variable {line : List UInt8} {text : List Char}

theorem validLines_cons (h : IsLine line text) (rest : List UInt8) :
    validLines (line ++ LineEnds.bytes.lineFeed :: rest) =
      LineEnds.bytes.chomp line :: validLines rest := by
  have hvalid : (Text.ofBytes? (LineEnds.bytes.chomp line)).isSome = true := by
    rw [Text.isSome_ofBytes?_chomp, h.valid]
    rfl
  rw [validLines, LineEnds.lines_append _ h.whole, List.takeWhile_cons, if_pos hvalid]
  rfl

theorem validLines_invalid (hwhole : LineEnds.bytes.lineFeed ∉ line)
    (hinvalid : Text.ofBytes? line = none) (rest : List UInt8) :
    validLines (line ++ LineEnds.bytes.lineFeed :: rest) = [] := by
  have hvalid : ¬ (Text.ofBytes? (LineEnds.bytes.chomp line)).isSome = true := by
    rw [Text.isSome_ofBytes?_chomp, hinvalid]
    decide
  rw [validLines, LineEnds.lines_append _ hwhole, List.takeWhile_cons, if_neg hvalid]

/-- What is made of the last line, that has no line feed. -/
theorem filterMap_unfinished {α : Type} {f : List UInt8 → Option α}
    (hwhole : LineEnds.bytes.lineFeed ∉ line) (hnil : f [] = none)
    (hinvalid : Text.ofBytes? line = none → f line = none) :
    (validLines line).filterMap f = (f line).toList := by
  by_cases hne : line = []
  · rw [hne, hnil]
    rfl
  rw [validLines, LineEnds.lines_of_not_mem _ hwhole hne]
  cases htext : Text.ofBytes? line with
  | none => simp [htext, hinvalid htext]
  | some text =>
    simp only [List.takeWhile_cons, htext, Option.isSome_some, if_true, List.takeWhile_nil,
      List.filterMap_cons, List.filterMap_nil]
    cases f line <;> rfl

theorem events_cons (h : IsLine line text) (rest : List UInt8) :
    events (line ++ LineEnds.bytes.lineFeed :: rest) =
      (eventOfLine? (LineEnds.bytes.chomp line)).toList ++ events rest := by
  rw [events, validLines_cons h, events, List.filterMap_cons]
  cases eventOfLine? (LineEnds.bytes.chomp line) <;> rfl

theorem commands_cons (h : IsLine line text) (rest : List UInt8) :
    commands (line ++ LineEnds.bytes.lineFeed :: rest) =
      (messageOfLine? line).toList ++ commands rest := by
  rw [commands, validLines_cons h, commands, List.filterMap_cons, messageOfLine?_chomp]
  cases (messageOfLine? line : Option ControlCommand) <;> rfl

/-- A line that is not UTF-8 ends the commands. -/
theorem commands_invalid (hwhole : LineEnds.bytes.lineFeed ∉ line)
    (hinvalid : Text.ofBytes? line = none) (rest : List UInt8) :
    commands (line ++ LineEnds.bytes.lineFeed :: rest) = [] := by
  rw [commands, validLines_invalid hwhole hinvalid]
  rfl

theorem eventOfLine?_of_chomp (h : eventOfLine? (LineEnds.bytes.chomp line) = none) :
    eventOfLine? line = none := by
  have hshorter := Text.length_chomp_le line
  rw [eventOfLine?] at h ⊢
  split
  · rfl
  · next hshort => rwa [if_neg (by omega), messageOfLine?_chomp] at h

theorem events_unfinished (hwhole : LineEnds.bytes.lineFeed ∉ line) :
    events line = (eventOfLine? line).toList ++ [.disconnected] := by
  rw [events, filterMap_unfinished hwhole rfl]
  intro hinvalid
  rw [eventOfLine?, messageOfLine?, hinvalid, Option.bind_none, ite_self]

theorem commands_unfinished (hwhole : LineEnds.bytes.lineFeed ∉ line) :
    commands line = (messageOfLine? line).toList := by
  rw [commands, filterMap_unfinished hwhole rfl]
  intro hinvalid
  rw [messageOfLine?, hinvalid, Option.bind_none]

end Lines

/-! ## Between other lines -/

/-- Messages as lines, in order, and other lines before, between and behind them.  The last of the
others may have no line feed. -/
inductive Interspersed {α : Type} [Wire α] (Noise : List UInt8 → Prop) :
    List α → List UInt8 → Prop where
  | nil : Interspersed Noise [] []
  | unfinished (noise : List UInt8) (hnoise : Noise noise) : Interspersed Noise [] noise
  | message (a : α) (messages : List α) (stream : List UInt8)
      (h : Interspersed Noise messages stream) :
      Interspersed Noise (a :: messages) (line a ++ stream)
  | noise (noise : List UInt8) (hnoise : Noise noise) (messages : List α) (stream : List UInt8)
      (h : Interspersed Noise messages stream) :
      Interspersed Noise messages (noise ++ LineEnds.bytes.lineFeed :: stream)

/-- Messages with nothing between them. -/
theorem interspersed_lines {α : Type} [Wire α] {Noise : List UInt8 → Prop} (messages : List α) :
    Interspersed Noise messages (messages.flatMap line) := by
  induction messages with
  | nil => exact .nil
  | cons a messages ih => exact .message a messages _ ih

theorem interspersed_line {α : Type} [Wire α] {Noise : List UInt8 → Prop} (a : α) :
    Interspersed Noise [a] (line a) := by
  simpa using interspersed_lines [a]

/-- A line of text that, without the blanks around it, is empty, is no event, or says that nothing
follows, or that is too long even without the carriage return at its end. -/
def EventNoise (line : List UInt8) : Prop :=
  ∃ text, IsLine line text ∧
    (Text.trim text = [] ∨
      (Wire.decode? (String.ofList (Text.trim text)) : Option TargetEvent) = none ∨
      Wire.decode? (String.ofList (Text.trim text)) = some TargetEvent.disconnected ∨
      maxLineLength < (LineEnds.bytes.chomp line).length)

/-- A line of text that is no command without the blanks around it. -/
def CommandNoise (line : List UInt8) : Prop :=
  ∃ text, IsLine line text ∧
    (Wire.decode? (String.ofList (Text.trim text)) : Option ControlCommand) = none

theorem eventOfLine?_of_noise {line : List UInt8} (h : EventNoise line) :
    eventOfLine? (LineEnds.bytes.chomp line) = none := by
  obtain ⟨text, hline, h⟩ := h
  have hmessage : (messageOfLine? (LineEnds.bytes.chomp line) : Option TargetEvent) =
      Wire.decode? (String.ofList (Text.trim text)) := by
    rw [messageOfLine?_chomp, messageOfLine?, hline.valid, Option.bind_some]
  rw [eventOfLine?]
  split
  · rfl
  · next hshort =>
    rw [hmessage]
    rcases h with hblank | hforeign | hdisconnected | hlong
    · rw [hblank]
      rfl
    · rw [hforeign]
    · rw [hdisconnected]
    · exact absurd hlong hshort

theorem eventOfLine?_of_message {line : List UInt8} {e : TargetEvent}
    (hlength : line.length ≤ maxLineLength) (hmessage : messageOfLine? line = some e)
    (he : e ≠ .disconnected) : eventOfLine? line = some e := by
  rw [eventOfLine?, if_neg (Nat.not_lt.mpr hlength), hmessage]
  cases e <;> first | rfl | exact absurd rfl he

theorem eventOfLine?_chomp_body {e : TargetEvent} (he : e ≠ .disconnected)
    (hlength : (body e).length ≤ maxLineLength) :
    eventOfLine? (LineEnds.bytes.chomp (body e)) = some e :=
  eventOfLine?_of_message (Nat.le_trans (Text.length_chomp_le _) hlength)
    (by rw [messageOfLine?_chomp, messageOfLine?_body]) he

theorem events_of_interspersed {es : List TargetEvent} {stream : List UInt8}
    (h : Interspersed EventNoise es stream)
    (hes : ∀ e ∈ es, e ≠ .disconnected ∧ (body e).length ≤ maxLineLength) :
    events stream = es ++ [.disconnected] := by
  induction h with
  | nil => rfl
  | unfinished noise hnoise =>
    obtain ⟨text, hline, -⟩ := id hnoise
    rw [events_unfinished hline.whole, eventOfLine?_of_chomp (eventOfLine?_of_noise hnoise)]
    rfl
  | message e es stream _ ih =>
    obtain ⟨⟨he, hlength⟩, hes⟩ := List.forall_mem_cons.mp hes
    rw [line_eq, List.append_assoc, List.singleton_append, events_cons (isLine_body e),
      eventOfLine?_chomp_body he hlength, ih hes]
    rfl
  | noise noise hnoise es stream _ ih =>
    obtain ⟨text, hline, -⟩ := id hnoise
    rw [events_cons hline, eventOfLine?_of_noise hnoise, ih hes]
    rfl

theorem messageOfLine?_of_noise {line : List UInt8} (h : CommandNoise line) :
    (messageOfLine? line : Option ControlCommand) = none := by
  obtain ⟨text, hline, hforeign⟩ := h
  rw [messageOfLine?, hline.valid, Option.bind_some, hforeign]

theorem commands_of_interspersed {cs : List ControlCommand} {stream : List UInt8}
    (h : Interspersed CommandNoise cs stream) : commands stream = cs := by
  induction h with
  | nil => rfl
  | unfinished noise hnoise =>
    obtain ⟨text, hline, -⟩ := id hnoise
    rw [commands_unfinished hline.whole, messageOfLine?_of_noise hnoise]
    rfl
  | message c cs stream _ ih =>
    rw [line_eq, List.append_assoc, List.singleton_append, commands_cons (isLine_body c),
      messageOfLine?_body, ih]
    rfl
  | noise noise hnoise cs stream _ ih =>
    obtain ⟨text, hline, -⟩ := id hnoise
    rw [commands_cons hline, messageOfLine?_of_noise hnoise, ih]
    rfl

/-! ## Noise as it stands -/

/-- A line that is taken as it stands: with the blanks around it, and the carriage return at its
end. -/
def RawEventNoise (line : List UInt8) : Prop :=
  ∃ text, IsLine line text ∧
    (Text.trim text = [] ∨
      (Wire.decode? (String.ofList text) : Option TargetEvent) = none ∨
      Wire.decode? (String.ofList text) = some TargetEvent.disconnected ∨
      maxLineLength < line.length)

/-- A line that no command can be read from, not even a text it may be. -/
def RawCommandNoise (line : List UInt8) : Prop :=
  LineEnds.bytes.lineFeed ∉ line ∧ (messageOfLine? line : Option ControlCommand) = none

/-- An event behind a no-break space, which is no blank of JSON. -/
def spacedText : List Char := '\u00a0' :: (Wire.encode (TargetEvent.started .main)).toList

/-- An event in a line that only its carriage return makes too long. -/
def paddedText : List Char :=
  (Wire.encode (TargetEvent.started .main)).toList ++
    (List.replicate (maxLineLength - (body (TargetEvent.started .main)).length) ' ' ++ ['\r'])

theorem decode?_spaced : (Wire.decode? (String.ofList spacedText) : Option TargetEvent) = none := by
  have hread (cs : List Char) : Json.read? ('\u00a0' :: cs) = none := rfl
  rw [Wire.decode?, Json.ofText?, String.toList_ofList, spacedText, hread]
  rfl

theorem toBytes_replicate_space (n : Nat) :
    Text.toBytes (List.replicate n ' ') = List.replicate n 0x20 := by
  rw [Text.toBytes_eq_flatMap]
  induction n with
  | zero => rfl
  | succ n ih =>
    rw [List.replicate_succ, List.flatMap_cons, ih]
    rfl

theorem length_body_started : (body (TargetEvent.started .main)).length + 2 ≤ maxLineLength := by
  decide

/-- The padded line without its carriage return has just the length that is read. -/
theorem toBytes_padded :
    ∃ front, Text.toBytes paddedText = front ++ [LineEnds.bytes.carriageReturn] ∧
      front.length = maxLineLength := by
  have hshort := length_body_started
  refine ⟨body (TargetEvent.started .main) ++
    List.replicate (maxLineLength - (body (TargetEvent.started .main)).length) 0x20, ?_, ?_⟩
  · rw [paddedText, Text.toBytes_append, Text.toBytes_append, toBytes_replicate_space,
      List.append_assoc]
    rfl
  · rw [List.length_append, List.length_replicate]
    omega

theorem isLine_toBytes {text : List Char} (h : '\n' ∉ text) : IsLine (Text.toBytes text) text :=
  ⟨fun hmem => h (Text.lineFeed_mem_toBytes.mp hmem), Text.ofBytes?_toBytes text⟩

theorem lineFeed_not_mem_started : '\n' ∉ (Wire.encode (TargetEvent.started .main)).toList :=
  fun hmem => (isLine_body (TargetEvent.started .main)).whole (Text.lineFeed_mem_toBytes.mpr hmem)

theorem isLine_spaced : IsLine (Text.toBytes spacedText) spacedText :=
  isLine_toBytes (by simp [spacedText, lineFeed_not_mem_started])

theorem isLine_padded : IsLine (Text.toBytes paddedText) paddedText :=
  isLine_toBytes (by simp [paddedText, lineFeed_not_mem_started])

/-- The only message on a line that is not too long is an event. -/
theorem events_single {line : List UInt8} {text : List Char} (h : IsLine line text)
    (hlength : (LineEnds.bytes.chomp line).length ≤ maxLineLength)
    (hmessage : messageOfLine? line = some (TargetEvent.started .main)) :
    events (line ++ [LineEnds.bytes.lineFeed]) = [.started .main, .disconnected] := by
  have hchomped : messageOfLine? (LineEnds.bytes.chomp line) =
      some (TargetEvent.started .main) := by
    rw [messageOfLine?_chomp, hmessage]
  rw [events_cons h, eventOfLine?_of_message hlength hchomped nofun]
  rfl

/-- The spaced line is an event all the same. -/
theorem events_spaced :
    events (Text.toBytes spacedText ++ [0x0a]) = [.started .main, .disconnected] := by
  refine events_single isLine_spaced (Nat.le_trans (Text.length_chomp_le _) ?_) ?_
  · have hbytes : Text.toBytes spacedText =
        Text.toBytes ['\u00a0'] ++ body (TargetEvent.started .main) :=
      Text.toBytes_append ['\u00a0'] _
    have hshort := length_body_started
    have htwo : (Text.toBytes ['\u00a0']).length = 2 := rfl
    rw [hbytes, List.length_append, htwo]
    omega
  · have hmessage := messageOfLine?_blanks (TargetEvent.started .main) ['\u00a0'] []
      (List.forall_mem_singleton.mpr rfl) nofun
    rwa [List.append_nil] at hmessage

/-- The padded line is an event all the same. -/
theorem events_padded :
    events (Text.toBytes paddedText ++ [0x0a]) = [.started .main, .disconnected] := by
  obtain ⟨front, hfront, hlength⟩ := toBytes_padded
  refine events_single isLine_padded ?_ ?_
  · rw [hfront, Text.chomp_append_return, hlength]
  · refine messageOfLine?_blanks (TargetEvent.started .main) [] _ nofun fun c hc => ?_
    rcases List.mem_append.mp hc with hc | hc
    · rw [List.eq_of_mem_replicate hc]
      rfl
    · rw [List.mem_singleton.mp hc]
      rfl

/-- Lines that are no events as they stand are passed on, and a line that is no text keeps the
commands behind it back. -/
theorem raw_noise_counts :
    (Interspersed RawEventNoise ([] : List TargetEvent) (Text.toBytes spacedText ++ [0x0a]) ∧
      events (Text.toBytes spacedText ++ [0x0a]) ≠ [.disconnected]) ∧
    (Interspersed RawEventNoise ([] : List TargetEvent) (Text.toBytes paddedText ++ [0x0a]) ∧
      events (Text.toBytes paddedText ++ [0x0a]) ≠ [.disconnected]) ∧
    Interspersed RawCommandNoise [ControlCommand.exit 3]
        (0xff :: 0x0a :: line (ControlCommand.exit 3)) ∧
      commands (0xff :: 0x0a :: line (ControlCommand.exit 3)) ≠ [.exit 3] := by
  have hlong : maxLineLength < (Text.toBytes paddedText).length := by
    obtain ⟨front, hfront, hlength⟩ := toBytes_padded
    rw [hfront, List.length_append, hlength]
    exact Nat.lt_succ_self _
  have hbinary : RawCommandNoise [0xff] := ⟨by decide, rfl⟩
  have hbroken : commands (0xff :: 0x0a :: line (ControlCommand.exit 3)) = [] :=
    commands_invalid hbinary.1 rfl _
  refine ⟨⟨.noise _ ⟨_, isLine_spaced, .inr (.inl decode?_spaced)⟩ _ _ .nil, ?_⟩,
    ⟨.noise _ ⟨_, isLine_padded, .inr (.inr (.inr hlong))⟩ _ _ .nil, ?_⟩,
    .noise [0xff] hbinary _ _ (interspersed_line (ControlCommand.exit 3)), ?_⟩
  · rw [events_spaced]
    decide
  · rw [events_padded]
    decide
  · rw [hbroken]
    decide

end Pipe

end InterruptStress
