import Switchboard.Proofs.Config.Fields
import Switchboard.Proofs.Json.Faults

/-!
# The fields of a configuration are independent

`kinds` says what may stand under each key of a configuration, of the settings of the poller and of
those of an agent. An object in which nothing else stands under a known key either tells the fields
of a configuration or is faulty (`IsFaulty`): a known key is repeated somewhere in it, or its agent
has no address. In the first case that configuration is what is read, unless it fails a check; in
the second case nothing is read (`fields_independent`).
-/

namespace Switchboard

open Json

/-! ## What may stand under a key -/

/-- What may stand under the keys of the settings of the poller. -/
def PollerSettings.kinds : List (FieldForm Char) :=
  [⟨"workers", AnyForm fun n : UInt64 => NumberForm n.toNat, True⟩,
    ⟨"ping_timeout_secs", AnyForm fun n : UInt64 => NumberForm n.toNat, True⟩,
    ⟨"interval_secs", AnyForm fun n : UInt64 => NumberForm n.toNat, True⟩]

/-- What may stand under the keys of the settings of an agent. -/
def AgentSettings.kinds : List (FieldForm Char) :=
  [⟨"server_addr", AnyForm TextForm, False⟩, ⟨"peer_key", AnyForm (OptionalForm TextForm), True⟩,
    ⟨"headers", AnyForm (ListForm (PairForm TextForm TextForm)), True⟩]

namespace Config

/-- What may stand under the keys of a configuration. The settings of the poller and those of an
agent may be faulty themselves. -/
def kinds : List (FieldForm Char) :=
  [⟨"version", AnyForm fun n : UInt32 => NumberForm n.toNat, True⟩,
    ⟨"listen_addr", AnyForm TextForm, True⟩, ⟨"upgrade_path", AnyForm TextForm, True⟩,
    ⟨"peer_header", AnyForm TextForm, True⟩,
    ⟨"call_timeout_secs", AnyForm fun n : UInt64 => NumberForm n.toNat, True⟩,
    ⟨"child_env", AnyForm TextForm, True⟩,
    ⟨"poller", IsFittingObject PollerSettings.kinds, True⟩,
    ⟨"agent", fun written => written = ['n', 'u', 'l', 'l'] ∨
      IsFittingObject AgentSettings.kinds written, True⟩]

/-- A configuration in which a known key is repeated, in itself, in the settings of the poller or in
those of the agent, or whose agent has no address. -/
def IsFaulty (written : List Char) : Prop :=
  ∃ entries, IsObject entries written ∧ Fits kinds IsValue entries ∧ (Faulty kinds entries ∨
    (∃ value, ("poller", value) ∈ entries ∧ IsFaultyObject PollerSettings.kinds value) ∨
    ∃ value, ("agent", value) ∈ entries ∧ IsFaultyObject AgentSettings.kinds value)

end Config

/-! ## What is refused -/

namespace PollerSettings

theorem expects : Config.pollerShape.Expects kinds where
  names := rfl
  distinct := by decide
  bounded := by decide
  required kind hkind hneeded := by
    simp only [kinds, List.mem_cons, List.not_mem_nil, or_false] at hkind
    rcases hkind with rfl | rfl | rfl <;> exact absurd trivial hneeded
  settles place kind value hkind hform config := by
    match place, hkind, hform with
    | 0, rfl, ⟨n, hform⟩ => exact .inl ⟨_, (Config.takes_uint64 hform "usize").into _⟩
    | 1, rfl, ⟨n, hform⟩ => exact .inl ⟨_, (Config.takes_uint64 hform "u64").into _⟩
    | 2, rfl, ⟨n, hform⟩ => exact .inl ⟨_, (Config.takes_uint64 hform "u64").into _⟩

end PollerSettings

namespace AgentSettings

theorem expects : Config.agentShape.Expects kinds where
  names := rfl
  distinct := by decide
  bounded := by decide
  required kind hkind hneeded := by
    simp only [kinds, List.mem_cons, List.not_mem_nil, or_false] at hkind
    rcases hkind with rfl | rfl | rfl
    · exact List.mem_cons_self
    · exact absurd trivial hneeded
    · exact absurd trivial hneeded
  settles place kind value hkind hform config := by
    match place, hkind, hform with
    | 0, rfl, ⟨_, hform⟩ => exact .inl ⟨_, (TextForm.takes hform).into _⟩
    | 1, rfl, ⟨_, hform⟩ => exact .inl ⟨_, (takes_peerKey hform).into _⟩
    | 2, rfl, ⟨_, hform⟩ => exact .inl ⟨_, (takes_headers hform).into _⟩

end AgentSettings

namespace Config

variable {written : List Char}

theorem expects : shape.Expects kinds where
  names := rfl
  distinct := by decide
  bounded := by decide
  required kind hkind hneeded := by
    simp only [kinds, List.mem_cons, List.not_mem_nil, or_false] at hkind
    rcases hkind with rfl | rfl | rfl | rfl | rfl | rfl | rfl | rfl <;>
      exact absurd trivial hneeded
  settles place kind value hkind hform config := by
    match place, hkind, hform with
    | 0, rfl, ⟨_, hform⟩ => exact .inl ⟨_, (takes_uint32 hform "u32").into _⟩
    | 1, rfl, ⟨_, hform⟩ => exact .inl ⟨_, (TextForm.takes hform).into _⟩
    | 2, rfl, ⟨_, hform⟩ => exact .inl ⟨_, (TextForm.takes hform).into _⟩
    | 3, rfl, ⟨_, hform⟩ => exact .inl ⟨_, (TextForm.takes hform).into _⟩
    | 4, rfl, ⟨_, hform⟩ => exact .inl ⟨_, (takes_uint64 hform "u64").into _⟩
    | 5, rfl, ⟨_, hform⟩ => exact .inl ⟨_, (TextForm.takes hform).into _⟩
    | 6, rfl, hform =>
      rcases PollerSettings.expects.takes_or_fails hform with ⟨poller, htakes⟩ | hfails
      · exact .inl ⟨_, htakes.into _⟩
      · exact .inr (hfails.into _)
    | 7, rfl, .inl hnull =>
      subst hnull
      exact .inl ⟨_, takes_absent.into _⟩
    | 7, rfl, .inr hform =>
      obtain ⟨entries, hobject, hfits⟩ := hform
      rcases AgentSettings.expects.takes_or_fails ⟨entries, hobject, hfits⟩ with
        ⟨agent, htakes⟩ | hfails
      · exact .inl ⟨_, (htakes.optional_object hobject).into _⟩
      · exact .inr ((hfails.optional_object hobject).into _)

/-- A faulty configuration is refused, at whichever level the fault is. -/
theorem IsFaulty.fails (h : IsFaulty written) : Fails shape.read written := by
  obtain ⟨entries, hobject, hfits, hfault⟩ := h
  rcases hfault with hfaulty | ⟨value, hvalue, hpoller⟩ | ⟨value, hvalue, hagent⟩
  · exact expects.fails hobject hfits hfaulty
  · obtain ⟨inner, hinner, hkinds, hfaulty⟩ := hpoller
    have hfails := PollerSettings.expects.fails hinner hkinds hfaulty
    exact expects.fails_inside hobject hfits 6 rfl hvalue fun _ => hfails.into _
  · obtain ⟨inner, hinner, hkinds, hfaulty⟩ := hagent
    have hfails := AgentSettings.expects.fails hinner hkinds hfaulty
    exact expects.fails_inside hobject hfits 7 rfl hvalue fun _ =>
      (hfails.optional_object hinner).into _

end Config

/-! ## What is told -/

theorem PollerSettings.exists_told {written : List Char} (h : IsObjectOf kinds written) :
    ∃ config : PollerSettings, IsObjectOf config.fields written := by
  obtain ⟨entries, hobject, htells⟩ := h
  obtain ⟨workers, hworkers⟩ := htells.exists_told 0 rfl 10
  obtain ⟨pingTimeout, hpingTimeout⟩ := htells.exists_told 1 rfl 3
  obtain ⟨interval, hinterval⟩ := htells.exists_told 2 rfl 30
  refine ⟨⟨workers, pingTimeout, interval⟩, entries, hobject, htells.retold rfl ?_⟩
  simp only [fields, List.forall_mem_cons]
  exact ⟨hworkers, hpingTimeout, hinterval, List.forall_mem_nil _⟩

theorem AgentSettings.exists_told {written : List Char} (h : IsObjectOf kinds written) :
    ∃ config : AgentSettings, IsObjectOf config.fields written := by
  obtain ⟨entries, hobject, htells⟩ := h
  obtain ⟨serverAddr, hserverAddr, -⟩ := htells.exists_told 0 rfl ""
  obtain ⟨peerKey, hpeerKey⟩ := htells.exists_told 1 rfl none
  obtain ⟨headers, hheaders⟩ := htells.exists_told 2 rfl []
  have hrequired := htells.absent 0 _ rfl List.not_mem_nil
  refine ⟨⟨serverAddr, peerKey, headers⟩, entries, hobject, htells.retold rfl ?_⟩
  simp only [fields, List.forall_mem_cons]
  exact ⟨⟨hserverAddr, hrequired⟩, hpeerKey, hheaders, List.forall_mem_nil _⟩

namespace Config

variable {written : List Char}

/-- Settings of the poller that are not faulty are those of some poller. -/
theorem poller_told (h : IsFittingObject PollerSettings.kinds written)
    (hsound : ¬ IsFaultyObject PollerSettings.kinds written) :
    AnyForm (fun poller : PollerSettings => IsObjectOf poller.fields) written :=
  PollerSettings.exists_told (h.faulty_or_tells.resolve_left hsound)

/-- Settings of an agent that are not faulty are those of some agent, or of none. -/
theorem agent_told
    (h : written = ['n', 'u', 'l', 'l'] ∨ IsFittingObject AgentSettings.kinds written)
    (hsound : ¬ IsFaultyObject AgentSettings.kinds written) : AnyForm AgentForm written := by
  rcases h with rfl | h
  · exact ⟨none, .absent⟩
  · obtain ⟨agent, hagent⟩ := AgentSettings.exists_told (h.faulty_or_tells.resolve_left hsound)
    exact ⟨some agent, .present hagent⟩

/-- **What is not faulty tells a configuration.** -/
theorem faulty_or_told (h : IsFittingObject kinds written) :
    IsFaulty written ∨ ∃ config : Config, IsObjectOf config.fields written := by
  by_cases hfaulty : IsFaulty written
  · exact .inl hfaulty
  · obtain ⟨entries, hobject, hfits⟩ := h
    have hsound := fun hfault => hfaulty ⟨entries, hobject, hfits, hfault⟩
    have htells : Tells kinds IsValue [] entries :=
      hfits.faulty_or_tells.resolve_left fun hfault => hsound (.inl hfault)
    obtain ⟨version, hversion⟩ := htells.exists_told 0 rfl 1
    obtain ⟨listenAddr, hlistenAddr⟩ := htells.exists_told 1 rfl "0.0.0.0:8008"
    obtain ⟨upgradePath, hupgradePath⟩ := htells.exists_told 2 rfl "/plus/arpc"
    obtain ⟨peerHeader, hpeerHeader⟩ := htells.exists_told 3 rfl "X-Fleet-Peer"
    obtain ⟨callTimeout, hcallTimeout⟩ := htells.exists_told 4 rfl 30
    obtain ⟨childMarker, hchildMarker⟩ := htells.exists_told 5 rfl "FLEETLINK_CHILD"
    have hkinds (place : Nat) kind (hkind : kinds[place]? = some kind) : kind ∈ kinds :=
      List.mem_of_getElem? hkind
    obtain ⟨poller, hpoller⟩ := exists_told (htells.once _ (hkinds 6 _ rfl))
      (fun value hvalue => poller_told (hfits.given _ (hkinds 6 _ rfl) value hvalue)
        fun hfault => hsound (.inr (.inl ⟨value, hvalue, hfault⟩))) {}
    obtain ⟨agent, hagent⟩ := exists_told (htells.once _ (hkinds 7 _ rfl))
      (fun value hvalue => agent_told (hfits.given _ (hkinds 7 _ rfl) value hvalue)
        fun hfault => hsound (.inr (.inr ⟨value, hvalue, hfault⟩))) none
    refine .inr ⟨⟨version, listenAddr, upgradePath, peerHeader, callTimeout, childMarker, poller,
      agent⟩, entries, hobject, htells.retold rfl ?_⟩
    simp only [fields, List.forall_mem_cons]
    exact ⟨hversion, hlistenAddr, hupgradePath, hpeerHeader, hcallTimeout, hchildMarker, hpoller,
      hagent, List.forall_mem_nil _⟩

/-! ## What is read -/

/-- The checks of a configuration, in their order: whether each fails, and what is said then. -/
def checks (config : Config) : List (Bool × String) :=
  [(currentVersion < config.version,
      s!"unsupported config version {config.version} (max {currentVersion})"),
    (config.upgradePath.toList.head? ≠ some '/',
      s!"upgrade_path must start with '/': {config.upgradePath}"),
    (config.callTimeout = 0, "call_timeout_secs must be > 0"),
    (config.poller.workers = 0, "poller.workers must be > 0"),
    (config.childMarker.isEmpty, "child_env must not be empty")]

/-- What comes of a configuration: itself, or what the first of its checks says that fails. -/
def judged (config : Config) : Except Fault Config :=
  match config.checks.find? Prod.fst with
  | some (_, complaint) => .error (.config complaint)
  | none => .ok config

theorem complaint?_eq (config : Config) :
    config.complaint? = (config.checks.find? Prod.fst).map Prod.snd := by
  unfold complaint? checks
  repeat' split
  all_goals simp [*]

theorem ofJson_of_parse {text : String} {config : Config}
    (h : Json.parse shape.read text = .ok config) : ofJson text = config.judged := by
  have hvalidate : (config.validate >>= fun _ => pure config) = config.judged := by
    unfold validate judged
    rw [complaint?_eq]
    cases config.checks.find? Prod.fst <;> rfl
  unfold ofJson
  rw [h]
  exact hvalidate

/-- **The fields of a configuration are independent.** An object that tells the fields of a
configuration, each at most once, in any order, with any spaces and with any values under other
keys, is read as that configuration, in which what is absent has its default, unless a check fails:
then the first one that does is reported. An object that repeats a known key, in itself or in the
settings of its poller or of its agent, or whose agent has no address, is refused. Every object
under whose known keys stands what may stand there is of the one sort or of the other. -/
theorem fields_independent {part : Part} (hpart : part.Spaced) :
    (∀ config : Config, IsObjectOf config.fields part.value →
      ofJson (String.ofList part.written) = config.judged) ∧
    (IsFaulty part.value →
      ∃ reason, ofJson (String.ofList part.written) = .error (.config reason)) ∧
    (IsFittingObject kinds part.value →
      IsFaulty part.value ∨ ∃ config : Config, IsObjectOf config.fields part.value) := by
  refine ⟨fun config hconfig => ?_, fun hfaulty => ?_, faulty_or_told⟩
  · exact ofJson_of_parse ((takes hconfig).parse hpart)
  · obtain ⟨flaw, hflaw⟩ := hfaulty.fails.parse hpart
    refine ⟨flaw.message, ?_⟩
    unfold ofJson
    rw [hflaw]

/-- An agent whose key is spelled with an escape, with spaces and with a nested value that nobody
knows, before a poller; a configuration that fails two checks, of which the first is reported; and
an agent without an address. -/
theorem fields_independent_scattered :
    ofJson (" \x7b \"ag\\u0065nt\" : \x7b\"x\":[[true],null] ,\"server_addr\":\"h:1\"\x7d," ++
        "\"poller\":\x7b\"workers\":4\x7d\x7d\n") =
      .ok { poller := { workers := 4 }, agent := some { serverAddr := "h:1" } } ∧
    ofJson "\x7b\"call_timeout_secs\":0,\"child_env\":\"\"\x7d" =
      .error (.config "call_timeout_secs must be > 0") ∧
    ∃ reason, ofJson "\x7b\"agent\":\x7b\x7d\x7d" = .error (.config reason) := by
  let unknown := listText [.bare (listText [.bare ['t', 'r', 'u', 'e']] []),
    .bare ['n', 'u', 'l', 'l']] []
  let agentText := objectText [(.bare (quote "x"), ⟨[], unknown, [' ']⟩),
    (.bare (quote "server_addr"), .bare (quote "h:1"))] []
  let pollerText := writeObject [("workers", writeNat 4)]
  have hspace : Space [' '] := space_cons (by decide) space_nil
  refine ⟨?_, ?_, ?_⟩
  · have hunknown : IsValue unknown := by
      have hinner : IsValue (listText [.bare ['t', 'r', 'u', 'e']] []) :=
        .list (by simp [Part.spaced_bare]) (by simpa using .word (by decide)) space_nil
      refine .list (by simp [Part.spaced_bare]) ?_ space_nil
      simpa using ⟨hinner, .word (by decide)⟩
    have hagent : IsObjectOf (AgentSettings.fields { serverAddr := "h:1" }) agentText := by
      have hlists : Lists (AgentSettings.fields { serverAddr := "h:1" })
          [("server_addr", quote "h:1")] :=
        .given (quote_form "h:1") (.omitted rfl (.omitted rfl .nil))
      refine ⟨[("x", unknown), ("server_addr", quote "h:1")], ⟨_, [],
        .cons ⟨Part.spaced_bare _, ⟨space_nil, hspace⟩, quote_form "x", rfl⟩
          (.cons (isEntry_bare _) .nil), space_nil, rfl⟩, ?_⟩
      exact (hlists.tells (AgentSettings.assembles _).distinct IsValue).cons_unknown (by decide)
        hunknown
    have hpoller : IsObjectOf (PollerSettings.fields { workers := 4 }) pollerText :=
      ⟨_, isObject_writeObject _, Lists.tells (.given rfl (.omitted rfl (.omitted rfl .nil)))
        (PollerSettings.assembles _).distinct IsValue⟩
    have hname : TextForm "agent"
        ['"', 'a', 'g', '\\', 'u', '0', '0', '6', '5', 'n', 't', '"'] := by
      have hletter {c : Char} (hc : ¬ c.toNat < 0x20 ∧ c ≠ '"' ∧ c ≠ '\\') : Spells c [c] :=
        .plain hc.1 hc.2.1 hc.2.2
      have hescape : Spells (Char.ofNat (((0 * 16 + 0) * 16 + 6) * 16 + 5))
          ('\\' :: 'u' :: ['0', '0', '6', '5']) := .number (.digits rfl rfl rfl rfl) (by decide)
      exact ⟨_, .cons (hletter (by decide)) (.cons (hletter (by decide)) (.cons hescape
        (.cons (hletter (by decide)) (.cons (hletter (by decide)) .nil)))), rfl⟩
    let config : Config := { poller := { workers := 4 }, agent := some { serverAddr := "h:1" } }
    let part : Part := ⟨[' '], objectText [(⟨[' '], ['"', 'a', 'g', '\\', 'u', '0', '0', '6', '5',
      'n', 't', '"'], [' ']⟩, ⟨[' '], agentText, []⟩), (.bare (quote "poller"), .bare pollerText)]
      [], ['\n']⟩
    have hpart : part.Spaced := ⟨hspace, space_cons (by decide) space_nil⟩
    have hconfig : IsObjectOf config.fields part.value := by
      have hlists : Lists config.fields [("poller", pollerText), ("agent", agentText)] :=
        .omitted rfl (.omitted rfl (.omitted rfl (.omitted rfl (.omitted rfl (.omitted rfl
          (.given hpoller (.given (.present hagent) .nil)))))))
      refine ⟨[("agent", agentText), ("poller", pollerText)], ⟨_, [],
        .cons ⟨⟨hspace, hspace⟩, ⟨hspace, space_nil⟩, hname, rfl⟩
          (.cons (isEntry_bare _) .nil), space_nil, rfl⟩, ?_⟩
      exact (hlists.tells config.assembles.distinct IsValue).of_perm (.swap _ _ [])
    have hchecks : config.checks.find? Prod.fst = none := by decide +kernel +zetaReduce
    have hread := (fields_independent hpart).1 config hconfig
    unfold judged at hread
    rw [hchecks] at hread
    refine Eq.trans (congrArg ofJson ?_) hread
    decide +kernel +zetaReduce
  · let config : Config := { callTimeout := 0, childMarker := "" }
    have hlists : Lists config.fields
        [("call_timeout_secs", writeNat 0), ("child_env", quote "")] :=
      .omitted rfl (.omitted rfl (.omitted rfl (.omitted rfl (.given rfl (.given (quote_form "")
        (.omitted rfl (.omitted rfl .nil)))))))
    have hchecks : config.checks.find? Prod.fst = some (true, "call_timeout_secs must be > 0") := by
      decide +kernel +zetaReduce
    have hread := (fields_independent (Part.spaced_bare _)).1 config
      ⟨_, isObject_writeObject _, hlists.tells config.assembles.distinct IsValue⟩
    unfold judged at hread
    rw [hchecks] at hread
    refine Eq.trans (congrArg ofJson ?_) hread
    decide +kernel
  · have hagent : IsFaultyObject AgentSettings.kinds (writeObject []) :=
      ⟨[], isObject_writeObject [], ⟨by simp, by simp⟩,
        .inr ⟨_, List.mem_cons_self, id, List.not_mem_nil⟩⟩
    have ⟨inner, hobject, hfits, _⟩ := hagent
    have hfaulty : IsFaulty (writeObject [("agent", writeObject [])]) := by
      refine ⟨_, isObject_writeObject _, ⟨?_, by simp [kinds]⟩,
        .inr (.inr ⟨_, List.mem_cons_self, hagent⟩)⟩
      simpa [kinds] using .inr ⟨inner, hobject, hfits⟩
    obtain ⟨reason, hread⟩ := (fields_independent (Part.spaced_bare _)).2.1 hfaulty
    refine ⟨reason, Eq.trans (congrArg ofJson ?_) hread⟩
    decide +kernel

end Config

end Switchboard
