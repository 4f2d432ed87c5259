import TimeTracker.Lib.Json.Fuel
import TimeTracker.Structs

/-!
# Payloads

What a client finds in a message: `WellFormed` says that it is an object of a type and a
payload, that the payload is JSON again, and that the payload of an error or a success holds
exactly the text the server reported.

* **`parse_jsonPayload`**: a serialised value between the braces of `format!` is read back.
* **`parse_messagePayload_iff`**: a message copied between quotation marks is read back exactly
  if it is plain.
* **`wellFormed_of_data`** and **`wellFormed_report_iff`** put the two together for the messages
  of the protocol.
-/

namespace TimeTracker

/-! ## The texts `format!` puts together -/

theorem parse_toJson (message : WebSocketMessage) :
    Json.parse message.toJson =
      some (.obj [("type", .str message.type.rename), ("payload", .str message.payload)]) :=
  Json.parse_toText _

theorem toList_jsonPayload {key : String} (hkey : Json.plain key = true) (json : String) :
    (jsonPayload key json).toList =
      '{' :: (Json.printString key ++ ':' :: ' ' :: (json.toList ++ ['}'])) := by
  rw [Json.printString_of_plain hkey, jsonPayload]
  simp only [String.toList_append]
  have hopen : "\x7b\"".toList = ['{', '"'] := rfl
  have hcolon : "\": ".toList = ['"', ':', ' '] := rfl
  have hclose : "\x7d".toList = ['}'] := rfl
  rw [hopen, hcolon, hclose]
  simp only [List.append_assoc, List.cons_append, List.nil_append]

/-- **A payload that holds a serialised value.** -/
theorem parse_jsonPayload {key : String} (hkey : Json.plain key = true) (v : Json.Value) :
    Json.parse (jsonPayload key (Json.toText v)) = some (.obj [(key, v)]) := by
  rw [Json.parse_eq_some_iff, toList_jsonPayload hkey, Json.toText, String.toList_ofList]
  exact Json.reads_member_print key v

theorem toList_messagePayload (m : String) :
    (messagePayload m).toList =
      '{' :: (Json.printString "message" ++ ':' :: ' ' :: '"' :: (m.toList ++ ['"', '}'])) := by
  have hquote : "\"".toList = ['"'] := rfl
  rw [messagePayload, toList_jsonPayload (by decide)]
  simp only [String.toList_append, hquote, List.append_assoc, List.cons_append, List.nil_append]

/-- **A payload that holds a message copied as it is.** -/
theorem parse_messagePayload_iff (m : String) :
    Json.parse (messagePayload m) = some (.obj [("message", .str m)]) ↔ Json.plain m = true := by
  rw [Json.parse_eq_some_iff, toList_messagePayload]
  exact Json.reads_raw_iff "message" m

/-- A message with a quotation mark in it: the payload is no JSON unless a comma or a brace
follows the mark. -/
theorem parse_messagePayload_none {m : String} {before after : List Char} {c : Char}
    (hm : m.toList = before ++ '"' :: c :: after) (hbefore : before.all Json.isPlain = true)
    (hws : Json.isWs c = false) (hcomma : c ≠ ',') (hbrace : c ≠ '}') :
    Json.parse (messagePayload m) = none := by
  rw [Option.eq_none_iff_forall_not_mem]
  intro v hv
  rw [Option.mem_def, Json.parse_eq_some_iff, toList_messagePayload, hm, List.append_assoc] at hv
  exact Json.not_reads_raw hbefore hws hcomma hbrace v hv

/-- The payload determines the message in it. -/
theorem messagePayload_injective {m m' : String} (h : messagePayload m = messagePayload m') :
    m = m' := by
  have hlist := congrArg String.toList h
  simp only [messagePayload, jsonPayload, String.toList_append, List.append_cancel_left_eq,
    List.append_cancel_right_eq] at hlist
  exact String.toList_injective hlist

/-- The text of a message determines its type and its payload. -/
theorem toJson_injective {message message' : WebSocketMessage}
    (h : message.toJson = message'.toJson) :
    message.type.rename = message'.type.rename ∧ message.payload = message'.payload := by
  have hparse := parse_toJson message
  rw [h, parse_toJson message'] at hparse
  simp only [Option.some.injEq, Json.Value.obj.injEq, List.cons.injEq, Prod.mk.injEq,
    Json.Value.str.injEq, true_and, and_true] at hparse
  exact ⟨hparse.1.symm, hparse.2.symm⟩

/-! ## Well-formed messages -/

/-- The text reports `m`, as an error or as a success. -/
def Reports (text m : String) : Prop :=
  text = (WebSocketMessage.error m).toJson ∨ text = (WebSocketMessage.success m).toJson

/-- A message a client can take apart down to what it reports. -/
def WellFormed (text : String) : Prop :=
  ∃ type payload, Json.parse text = some (.obj [("type", .str type), ("payload", .str payload)]) ∧
    (∃ v, Json.parse payload = some v) ∧
    ∀ m, Reports text m → Json.parse payload = some (.obj [("message", .str m)])

/-- A message that is neither an error nor a success reports nothing. -/
theorem not_reports {message : WebSocketMessage} (herror : message.type ≠ .error)
    (hsuccess : message.type ≠ .success) (m : String) : ¬ Reports message.toJson m := by
  rintro (h | h)
  · have htype := (toJson_injective h).1
    revert htype herror
    cases message.type <;> simp [WebSocketMessage.error, MessageType.rename]
  · have htype := (toJson_injective h).1
    revert htype hsuccess
    cases message.type <;> simp [WebSocketMessage.success, MessageType.rename]

/-- **A message that carries data** is well-formed if its payload is JSON. -/
theorem wellFormed_of_data {message : WebSocketMessage} (herror : message.type ≠ .error)
    (hsuccess : message.type ≠ .success) (hpayload : ∃ v, Json.parse message.payload = some v) :
    WellFormed message.toJson :=
  ⟨_, _, parse_toJson message, hpayload, fun m h => absurd h (not_reports herror hsuccess m)⟩

/-- A text reports at most one message, and its payload is that message's. -/
theorem Reports.payload {message : WebSocketMessage} {m : String}
    (h : Reports message.toJson m) : message.payload = messagePayload m := by
  rcases h with h | h
  · exact (toJson_injective h).2
  · exact (toJson_injective h).2

/-- **A message that reports `m`** is well-formed exactly if `m` is plain. -/
theorem wellFormed_report_iff {text m : String} (h : Reports text m) :
    WellFormed text ↔ Json.plain m = true := by
  obtain ⟨message, rfl, hpayload⟩ :
      ∃ message : WebSocketMessage, text = message.toJson ∧ message.payload = messagePayload m := by
    rcases h with h | h
    · exact ⟨_, h, rfl⟩
    · exact ⟨_, h, rfl⟩
  constructor
  · rintro ⟨type, payload, hparse, -, hreports⟩
    have hsame : payload = message.payload := by
      rw [parse_toJson] at hparse
      cases hparse
      rfl
    have hread := hreports m h
    rw [hsame, hpayload] at hread
    exact (parse_messagePayload_iff m).mp hread
  · intro hplain
    have hread := (parse_messagePayload_iff m).mpr hplain
    refine ⟨_, _, parse_toJson message, ⟨_, hpayload ▸ hread⟩, ?_⟩
    intro m' h'
    have hm : m' = m := messagePayload_injective (h'.payload.symm.trans hpayload)
    rw [hm, hpayload]
    exact hread

end TimeTracker
