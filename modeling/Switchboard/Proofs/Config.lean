import Switchboard.Proofs.Config.Fields

/-!
# A configuration survives a write and a read

A configuration is written as an object that lists its fields in their order. What is left out, the
key of an agent, its headers and the agent itself, is absent or empty, as it is assumed to be where
it is left out. So the written text is one of those that tell the configuration.
-/

namespace Switchboard.Config

open Json

theorem isObjectOf_writePoller (config : PollerSettings) :
    IsObjectOf config.fields (writePoller config) := by
  have hlists : Lists config.fields [("workers", writeNat config.workers.toNat),
      ("ping_timeout_secs", writeNat config.pingTimeout.toNat),
      ("interval_secs", writeNat config.interval.toNat)] :=
    .given rfl (.given rfl (.given rfl .nil))
  exact ⟨_, isObject_writeObject _, hlists.tells config.assembles.distinct IsValue⟩

theorem lists_headers (headers : List (String × String)) :
    Lists [⟨"headers", ListForm (PairForm TextForm TextForm) headers, headers = []⟩]
      (if headers.isEmpty then []
        else [("headers", writeList (headers.map fun (name, value) =>
          writeList [quote name, quote value]))]) := by
  split
  · rename_i hempty
    exact .omitted (List.isEmpty_iff.1 hempty) .nil
  · exact .given (writeList_form fun header _ =>
      writePair_form (quote_form header.1) (quote_form header.2)) .nil

theorem isObjectOf_writeAgent (config : AgentSettings) :
    IsObjectOf config.fields (writeAgent config) := by
  refine ⟨_, isObject_writeObject _, Lists.tells ?_ config.assembles.distinct IsValue⟩
  obtain ⟨serverAddr, peerKey, headers⟩ := config
  refine .given (quote_form serverAddr) ?_
  cases peerKey with
  | none => exact .omitted rfl (lists_headers headers)
  | some key => exact .given (.present (quote_form key)) (lists_headers headers)

theorem isObjectOf_write (config : Config) : IsObjectOf config.fields config.write := by
  refine ⟨_, isObject_writeObject _, Lists.tells ?_ config.assembles.distinct IsValue⟩
  obtain ⟨version, listenAddr, upgradePath, peerHeader, callTimeout, childMarker, poller, agent⟩ :=
    config
  refine .given rfl (.given (quote_form listenAddr) (.given (quote_form upgradePath)
    (.given (quote_form peerHeader) (.given rfl (.given (quote_form childMarker)
      (.given (isObjectOf_writePoller poller) ?_))))))
  cases agent with
  | none => exact .omitted rfl .nil
  | some agent => exact .given (.present (isObjectOf_writeAgent agent)) .nil

theorem parse_toJson (config : Config) : parse shape.read config.toJson = .ok config :=
  (takes config.isObjectOf_write).parse_bare

theorem validate_of_ofJson {text : String} {config : Config} (h : ofJson text = .ok config) :
    config.validate = .ok () := by
  unfold ofJson at h
  split at h
  · cases h
  · rename_i made _
    cases hvalid : made.validate with
    | error fault =>
      rw [hvalid] at h
      cases h
    | ok checked =>
      rw [hvalid] at h
      cases h
      exact hvalid

/-- **A configuration survives a write and a read.** What was written of a configuration is read
as that configuration if it passes the check, and is refused with the complaint of the check if it
does not. A configuration that was read can be written and read again, and stays what it is. -/
theorem ofJson_toJson :
    (∀ config : Config, ofJson config.toJson = config.validate.map fun _ => config) ∧
      ∀ (text : String) (config : Config), ofJson text = .ok config →
        ofJson config.toJson = .ok config := by
  have hwritten : ∀ config : Config,
      ofJson config.toJson = config.validate.map fun _ => config := by
    intro config
    unfold ofJson
    rw [parse_toJson]
    cases hvalid : config.validate <;> simp only [hvalid] <;> rfl
  refine ⟨hwritten, fun text config hread => ?_⟩
  rw [hwritten config, validate_of_ofJson hread]
  rfl

theorem ofJson_toJson_agent :
    let text := "\x7b\"agent\":\x7b\"headers\":[[\"k\\u0009\",\"\\\"v\\\"\"]]," ++
      "\"server_addr\":\"h:1\"\x7d\x7d"
    let config : Config :=
      { agent := some { serverAddr := "h:1", headers := [("k\t", "\"v\"")] } }
    ofJson text = .ok config ∧ ofJson config.toJson = .ok config := by
  intro text config
  have hread : ofJson text = .ok config := by
    have hmade : (ofJson text).toOption = some config := by decide +kernel
    cases h : ofJson text with
    | error fault =>
      rw [h] at hmade
      cases hmade
    | ok made =>
      rw [h] at hmade
      exact congrArg Except.ok (Option.some.inj hmade)
  exact ⟨hread, ofJson_toJson.2 text config hread⟩

end Switchboard.Config
