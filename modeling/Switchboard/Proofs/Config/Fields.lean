import Switchboard.Config
import Switchboard.Proofs.Json.Records

/-!
# The fields of a configuration

`Config.fields`, `PollerSettings.fields` and `AgentSettings.fields` say how each setting may be
written and which setting it is that may be left out. Each record is put together as its `part`, in
which those fields are set that have been read and the others have their defaults, so that a
configuration is taken from every object that tells its fields (`Config.takes`).
-/

namespace Switchboard

open Json

theorem Config.takes_uint64 {n : UInt64} {written : List Char} (h : NumberForm n.toNat written)
    (wanted : String) : Takes (natural (2 ^ 64) wanted) written n.toNat :=
  h.takes wanted n.toNat_lt (Nat.le_refl _)

theorem Config.takes_uint32 {n : UInt32} {written : List Char} (h : NumberForm n.toNat written)
    (wanted : String) : Takes (natural (2 ^ 32) wanted) written n.toNat :=
  h.takes wanted n.toNat_lt (by decide)

/-! ## The settings of the poller -/

namespace PollerSettings

/-- How the settings of the poller may be written. -/
def fields (config : PollerSettings) : List (FieldForm Char) :=
  [⟨"workers", NumberForm config.workers.toNat, config.workers = 10⟩,
    ⟨"ping_timeout_secs", NumberForm config.pingTimeout.toNat, config.pingTimeout = 3⟩,
    ⟨"interval_secs", NumberForm config.interval.toNat, config.interval = 30⟩]

def part (config : PollerSettings) (seen : List Nat) : PollerSettings where
  workers := if 0 ∈ seen then config.workers else 10
  pingTimeout := if 1 ∈ seen then config.pingTimeout else 3
  interval := if 2 ∈ seen then config.interval else 30

theorem stores (config : PollerSettings) : Config.pollerShape.Stores config.fields config.part := by
  intro seen place field value hfield hform
  match place, hfield with
  | 0, rfl =>
    have h := (Config.takes_uint64 hform "usize").into fun n =>
      { config.part seen with workers := UInt64.ofNat n }
    exact h.of_eq (by simp [part])
  | 1, rfl =>
    have h := (Config.takes_uint64 hform "u64").into fun n =>
      { config.part seen with pingTimeout := UInt64.ofNat n }
    exact h.of_eq (by simp [part])
  | 2, rfl =>
    have h := (Config.takes_uint64 hform "u64").into fun n =>
      { config.part seen with interval := UInt64.ofNat n }
    exact h.of_eq (by simp [part])

theorem assembles (config : PollerSettings) :
    Assembles Config.pollerShape.fields Config.pollerShape.required Config.pollerShape.blank
      config.fields config.part config where
  names := rfl
  distinct := by simp [fields]
  blank := rfl
  required place hplace := absurd hplace (Nat.not_lt_zero place)
  whole seen h := by
    obtain ⟨workers, pingTimeout, interval⟩ := config
    simp only [part, mk.injEq]
    exact ⟨ite_eq_left_iff.2 fun hnot => (h 0 _ rfl hnot).symm,
      ite_eq_left_iff.2 fun hnot => (h 1 _ rfl hnot).symm,
      ite_eq_left_iff.2 fun hnot => (h 2 _ rfl hnot).symm⟩

/-- The settings of the poller are taken from every object that tells them. -/
theorem takes {config : PollerSettings} {written : List Char}
    (h : IsObjectOf config.fields written) :
    Takes Config.pollerShape.read written config :=
  Record.takes_of_tells config.assembles config.stores h

end PollerSettings

/-! ## The settings of an agent -/

namespace AgentSettings

def fields (config : AgentSettings) : List (FieldForm Char) :=
  [⟨"server_addr", TextForm config.serverAddr, False⟩,
    ⟨"peer_key", OptionalForm TextForm config.peerKey, config.peerKey = none⟩,
    ⟨"headers", ListForm (PairForm TextForm TextForm) config.headers, config.headers = []⟩]

def part (config : AgentSettings) (seen : List Nat) : AgentSettings where
  serverAddr := if 0 ∈ seen then config.serverAddr else ""
  peerKey := if 1 ∈ seen then config.peerKey else none
  headers := if 2 ∈ seen then config.headers else []

theorem takes_peerKey {key : Option String} {written : List Char}
    (h : OptionalForm TextForm key written) : Takes (optional string) written key := by
  cases h with
  | absent => exact takes_absent
  | present h =>
    refine (TextForm.takes h).optional ?_
    rw [h.head?]
    decide

theorem takes_headers {headers : List (String × String)} {written : List Char}
    (h : ListForm (PairForm TextForm TextForm) headers written) :
    Takes (Json.list (Json.pair string string)) written headers :=
  h.takes fun _ _ _ hpair => hpair.takes (fun _ h => h.takes) (fun _ h => h.takes)

theorem stores (config : AgentSettings) : Config.agentShape.Stores config.fields config.part := by
  intro seen place field value hfield hform
  match place, hfield with
  | 0, rfl =>
    have h := (TextForm.takes hform).into fun serverAddr => { config.part seen with serverAddr }
    exact h.of_eq (by simp [part])
  | 1, rfl =>
    have h := (takes_peerKey hform).into fun peerKey => { config.part seen with peerKey }
    exact h.of_eq (by simp [part])
  | 2, rfl =>
    have h := (takes_headers hform).into fun headers => { config.part seen with headers }
    exact h.of_eq (by simp [part])

theorem assembles (config : AgentSettings) :
    Assembles Config.agentShape.fields Config.agentShape.required Config.agentShape.blank
      config.fields config.part config where
  names := rfl
  distinct := by simp [fields]
  blank := rfl
  required := by
    intro place hplace
    match place, hplace with
    | 0, _ => exact ⟨_, rfl, id⟩
  whole seen h := by
    obtain ⟨serverAddr, peerKey, headers⟩ := config
    simp only [part, mk.injEq]
    exact ⟨ite_eq_left_iff.2 fun hnot => (h 0 _ rfl hnot).elim,
      ite_eq_left_iff.2 fun hnot => (h 1 _ rfl hnot).symm,
      ite_eq_left_iff.2 fun hnot => (h 2 _ rfl hnot).symm⟩

/-- The settings of an agent are taken from every object that tells them. -/
theorem takes {config : AgentSettings} {written : List Char}
    (h : IsObjectOf config.fields written) :
    Takes Config.agentShape.read written config :=
  Record.takes_of_tells config.assembles config.stores h

end AgentSettings

/-! ## Configurations -/

namespace Config

/-- The ways in which the settings of an agent may be written, if there is one. -/
def AgentForm : Option AgentSettings → List Char → Prop :=
  OptionalForm fun agent => IsObjectOf agent.fields

def fields (config : Config) : List (FieldForm Char) :=
  [⟨"version", NumberForm config.version.toNat, config.version = 1⟩,
    ⟨"listen_addr", TextForm config.listenAddr, config.listenAddr = "0.0.0.0:8008"⟩,
    ⟨"upgrade_path", TextForm config.upgradePath, config.upgradePath = "/plus/arpc"⟩,
    ⟨"peer_header", TextForm config.peerHeader, config.peerHeader = "X-Fleet-Peer"⟩,
    ⟨"call_timeout_secs", NumberForm config.callTimeout.toNat, config.callTimeout = 30⟩,
    ⟨"child_env", TextForm config.childMarker, config.childMarker = "FLEETLINK_CHILD"⟩,
    ⟨"poller", IsObjectOf config.poller.fields, config.poller = {}⟩,
    ⟨"agent", AgentForm config.agent, config.agent = none⟩]

def part (config : Config) (seen : List Nat) : Config where
  version := if 0 ∈ seen then config.version else 1
  listenAddr := if 1 ∈ seen then config.listenAddr else "0.0.0.0:8008"
  upgradePath := if 2 ∈ seen then config.upgradePath else "/plus/arpc"
  peerHeader := if 3 ∈ seen then config.peerHeader else "X-Fleet-Peer"
  callTimeout := if 4 ∈ seen then config.callTimeout else 30
  childMarker := if 5 ∈ seen then config.childMarker else "FLEETLINK_CHILD"
  poller := if 6 ∈ seen then config.poller else {}
  agent := if 7 ∈ seen then config.agent else none

theorem takes_agent {agent : Option AgentSettings} {written : List Char}
    (h : AgentForm agent written) : Takes (optional agentShape.read) written agent := by
  cases h with
  | absent => exact takes_absent
  | present h =>
    have ⟨_, hobject, _⟩ := h
    exact (AgentSettings.takes h).optional_object hobject

theorem stores (config : Config) : shape.Stores config.fields config.part := by
  intro seen place field value hfield hform
  match place, hfield with
  | 0, rfl =>
    have h := (takes_uint32 hform "u32").into fun n =>
      { config.part seen with version := UInt32.ofNat n }
    exact h.of_eq (by simp [part])
  | 1, rfl =>
    have h := (TextForm.takes hform).into fun listenAddr => { config.part seen with listenAddr }
    exact h.of_eq (by simp [part])
  | 2, rfl =>
    have h := (TextForm.takes hform).into fun upgradePath => { config.part seen with upgradePath }
    exact h.of_eq (by simp [part])
  | 3, rfl =>
    have h := (TextForm.takes hform).into fun peerHeader => { config.part seen with peerHeader }
    exact h.of_eq (by simp [part])
  | 4, rfl =>
    have h := (takes_uint64 hform "u64").into fun n =>
      { config.part seen with callTimeout := UInt64.ofNat n }
    exact h.of_eq (by simp [part])
  | 5, rfl =>
    have h := (TextForm.takes hform).into fun childMarker => { config.part seen with childMarker }
    exact h.of_eq (by simp [part])
  | 6, rfl =>
    have h := (PollerSettings.takes hform).into fun poller => { config.part seen with poller }
    exact h.of_eq (by simp [part])
  | 7, rfl =>
    have h := (takes_agent hform).into fun agent => { config.part seen with agent }
    exact h.of_eq (by simp [part])

theorem assembles (config : Config) :
    Assembles shape.fields shape.required shape.blank config.fields config.part config where
  names := rfl
  distinct := by simp [fields]
  blank := rfl
  required place hplace := absurd hplace (Nat.not_lt_zero place)
  whole seen h := by
    obtain ⟨version, listenAddr, upgradePath, peerHeader, callTimeout, childMarker, poller,
      agent⟩ := config
    simp only [part, mk.injEq]
    exact ⟨ite_eq_left_iff.2 fun hnot => (h 0 _ rfl hnot).symm,
      ite_eq_left_iff.2 fun hnot => (h 1 _ rfl hnot).symm,
      ite_eq_left_iff.2 fun hnot => (h 2 _ rfl hnot).symm,
      ite_eq_left_iff.2 fun hnot => (h 3 _ rfl hnot).symm,
      ite_eq_left_iff.2 fun hnot => (h 4 _ rfl hnot).symm,
      ite_eq_left_iff.2 fun hnot => (h 5 _ rfl hnot).symm,
      ite_eq_left_iff.2 fun hnot => (h 6 _ rfl hnot).symm,
      ite_eq_left_iff.2 fun hnot => (h 7 _ rfl hnot).symm⟩

/-- A configuration is taken from every object that tells its fields. -/
theorem takes {config : Config} {written : List Char} (h : IsObjectOf config.fields written) :
    Takes shape.read written config :=
  Record.takes_of_tells config.assembles config.stores h

end Config

end Switchboard
