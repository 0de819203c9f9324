import Mathlib.Data.List.Induction
import Mathlib.Data.List.Sort
import Mathlib.Data.String.Basic
import Switchboard.Call
import Switchboard.Proofs.Payload
import Switchboard.Router

/-!
# Routers

A router is made by registering handlers one after the other, of payloads or of the requests of a
method, and a name may be registered again. The router then is the table of the last registration
under each name: `handler?_ofRegistrations` says which handler a name has, and
`Registration.handler` what that handler makes of a payload.

`dispatch_refines` puts into words of the registrations what a router lists and what it does with
every name and payload. `Work.Does` and `Work.Refuses` say whose work a dispatch comes to: that of
one handler, noted and timed as the handler has it, or nobody's.
-/

namespace Switchboard

/-- A handler that is registered: one of payloads under a name, or one of the requests of a
method. -/
inductive Registration : Type 1 where
  | raw (name : String) (handler : Handler)
  | typed {α β : Type} (method : Method α β) (handler : α → Work β)

namespace Registration

/-- The name under which a handler is registered. -/
def name : Registration → String
  | raw name _ => name
  | typed method _ => method.name

def handler : Registration → Handler
  | raw _ handler => handler
  | typed method handler => Router.typed method handler

/-- A registration that comes after all others under its name. -/
def IsLast (registrations : List Registration) (r : Registration) : Prop :=
  ∃ before after, registrations = before ++ r :: after ∧ ∀ later ∈ after, later.name ≠ r.name

/-- Under every name that was registered there is a last registration. By induction on the
registrations, from the last one on: it is that one, or another one that it leaves the last. -/
theorem exists_isLast {registrations : List Registration} {r : Registration}
    (h : r ∈ registrations) :
    ∃ last : Registration, last.IsLast registrations ∧ last.name = r.name := by
  induction registrations using List.reverseRecOn with
  | nil => cases h
  | append_singleton registrations newest ih =>
    by_cases hname : newest.name = r.name
    · refine ⟨newest, ⟨registrations, [], rfl, ?_⟩, hname⟩
      intro later hlater
      cases hlater
    · have hold : r ∈ registrations := by
        rcases List.mem_append.1 h with hold | hnewest
        · exact hold
        · exact absurd (congrArg name (List.mem_singleton.1 hnewest)).symm hname
      obtain ⟨last, ⟨before, after, rfl, hafter⟩, hlast⟩ := ih hold
      refine ⟨last, ⟨before, after ++ [newest], by simp, ?_⟩, hlast⟩
      intro later hlater
      rcases List.mem_append.1 hlater with hlater | hnewest
      · exact hafter later hlater
      · rw [List.mem_singleton.1 hnewest, hlast]
        exact hname

end Registration

namespace Work

variable {α : Type}

/-- The work is what a handler did, and is answered with the value that came of it, as it is
written, or with its error. A value that cannot be written is answered with the reason. -/
structure Does (work : Work ByteArray) (done : Work α) (write : α → Except Fault ByteArray) :
    Prop where
  started : work.started = done.started
  finished : work.finished = done.finished
  duration : work.duration = done.duration
  value : ∀ a data, done.outcome = .ok a → write a = .ok data → work.frame = .response data
  unwritten : ∀ a fault, done.outcome = .ok a → write a = .error fault →
    work.frame = .error fault.message
  error : ∀ text, done.outcome = .error text → work.frame = .error text

/-- No handler does anything, and the answer is an error. -/
structure Refuses (work : Work ByteArray) (text : String) : Prop where
  started : work.started = []
  finished : work.finished = []
  duration : work.duration = some 0
  error : work.frame = .error text

theorem does_self (work : Work ByteArray) : work.Does work .ok where
  started := rfl
  finished := rfl
  duration := rfl
  value data _ h hwritten := by cases hwritten; rw [frame, h]
  unwritten data fault _ hunwritten := by cases hunwritten
  error text h := by rw [frame, h]

theorem does_map (done : Work α) (write : α → Except Fault ByteArray) :
    (done.map fun outcome => outcome.bind fun a => (write a).mapError Fault.message).Does done
      write where
  started := rfl
  finished := rfl
  duration := rfl
  value a data h hwritten := by simp only [frame, map, h, Except.bind, hwritten, Except.mapError]
  unwritten a fault h hunwritten := by
    simp only [frame, map, h, Except.bind, hunwritten, Except.mapError]
  error text h := by rw [frame, map, h]; rfl

end Work

/-- A value can be written, and is what its bytes are read as. -/
def Codec.RoundTrips {α : Type} (codec : Codec α) (a : α) : Prop :=
  codec.refusal? a = none ∧ codec.decode (codec.encode a) = .ok a

theorem Codec.write_ok {α : Type} {codec : Codec α} {a : α} (h : codec.refusal? a = none) :
    codec.write a = .ok (codec.encode a) := by
  rw [write, h]

namespace Router

variable {router : Router} {registrations : List Registration} {r : Registration} {name : String}

def register (router : Router) : Registration → Router
  | .raw name handler => router.onRaw name handler
  | .typed method handler => router.on method handler

/-- The router that is made by some registrations, one after the other. -/
def ofRegistrations (registrations : List Registration) : Router :=
  registrations.foldl register {}

theorem register_eq (router : Router) (r : Registration) :
    router.register r = router.onRaw r.name r.handler := by
  cases r <;> rfl

/-! ## Which handler a name has -/

theorem handler?_onRaw (router : Router) (method name : String) (handler : Handler) :
    (router.onRaw method handler).handler? name =
      if name = method then some handler else router.handler? name := by
  obtain ⟨handlers⟩ := router
  unfold handler? onRaw
  by_cases hname : name = method
  · simp [hname]
  · rw [if_neg hname, List.lookup_cons, beq_eq_false_iff_ne.2 hname]
    induction handlers with
    | nil => rfl
    | cons entry handlers ih =>
      obtain ⟨other, old⟩ := entry
      by_cases hother : other = method
      · subst hother
        simpa [List.lookup_cons, beq_eq_false_iff_ne.2 hname] using ih
      · by_cases hsame : name = other
        · subst hsame
          simp [hother]
        · simpa [hother, List.lookup_cons, beq_eq_false_iff_ne.2 hsame] using ih

/-- Registrations under other names change nothing for a name. -/
theorem handler?_foldl_other (h : ∀ r ∈ registrations, r.name ≠ name) (router : Router) :
    (registrations.foldl register router).handler? name = router.handler? name := by
  induction registrations generalizing router with
  | nil => rfl
  | cons r registrations ih =>
    have hother : name ≠ r.name := (h r List.mem_cons_self).symm
    rw [List.foldl_cons, ih (fun later hlater => h later (List.mem_cons_of_mem r hlater)),
      register_eq, handler?_onRaw, if_neg hother]

theorem handler?_unknown (h : ∀ r ∈ registrations, r.name ≠ name) :
    (ofRegistrations registrations).handler? name = none :=
  handler?_foldl_other h {}

/-- A name has the handler that was registered last under it. -/
theorem handler?_ofRegistrations (h : r.IsLast registrations) :
    (ofRegistrations registrations).handler? r.name = some r.handler := by
  obtain ⟨before, after, rfl, hafter⟩ := h
  rw [ofRegistrations, List.foldl_append, List.foldl_cons, handler?_foldl_other hafter,
    register_eq, handler?_onRaw, if_pos rfl]

/-! ## Which names are listed -/

def names (router : Router) : List String :=
  router.handlers.map Prod.fst

theorem mem_names_onRaw (router : Router) (method : String) (handler : Handler) :
    name ∈ (router.onRaw method handler).names ↔ name = method ∨ name ∈ router.names := by
  unfold names onRaw
  rw [List.map_cons, List.mem_cons]
  by_cases hname : name = method
  · simp [hname]
  · simp [hname]

theorem nodup_names_onRaw (h : router.names.Nodup) (method : String) (handler : Handler) :
    (router.onRaw method handler).names.Nodup := by
  unfold names onRaw
  rw [List.map_cons, List.nodup_cons]
  refine ⟨?_, h.sublist (List.filter_sublist.map _)⟩
  intro hmem
  obtain ⟨entry, hentry, hname⟩ := List.mem_map.1 hmem
  have hother := (List.mem_filter.1 hentry).2
  simp [hname] at hother

/-- By induction on the registrations, from the last one on. -/
theorem names_ofRegistrations (registrations : List Registration) :
    (ofRegistrations registrations).names.Nodup ∧
      ∀ name, name ∈ (ofRegistrations registrations).names ↔
        ∃ r ∈ registrations, r.name = name := by
  unfold ofRegistrations
  induction registrations using List.reverseRecOn with
  | nil => exact ⟨List.nodup_nil, fun name => by simp [names]⟩
  | append_singleton registrations r ih =>
    obtain ⟨hnodup, hmem⟩ := ih
    rw [List.foldl_append, List.foldl_cons, List.foldl_nil, register_eq]
    refine ⟨nodup_names_onRaw hnodup r.name r.handler, fun name => ?_⟩
    rw [mem_names_onRaw, hmem]
    constructor
    · rintro (rfl | ⟨other, hother, rfl⟩)
      · exact ⟨r, List.mem_append_right _ (List.mem_singleton_self r), rfl⟩
      · exact ⟨other, List.mem_append_left _ hother, rfl⟩
    · rintro ⟨other, hother, rfl⟩
      rcases List.mem_append.1 hother with hold | hlast
      · exact .inr ⟨other, hold, rfl⟩
      · exact .inl (congrArg Registration.name (List.mem_singleton.1 hlast))

theorem methods_eq_insertionSort (router : Router) :
    router.methods = router.names.insertionSort (· ≤ ·) := by
  rw [methods, ← List.mergeSort_eq_insertionSort]
  rfl

theorem mem_methods : name ∈ router.methods ↔ name ∈ router.names := by
  rw [methods_eq_insertionSort, List.mem_insertionSort]

theorem methods_increasing (h : router.names.Nodup) : router.methods.Pairwise (· < ·) := by
  rw [methods_eq_insertionSort]
  have hle := List.pairwise_insertionSort (· ≤ ·) router.names
  have hne : (router.names.insertionSort (· ≤ ·)).Nodup :=
    (List.perm_insertionSort (· ≤ ·) router.names).nodup_iff.2 h
  exact hle.imp₂ (fun _ _ hle hne => lt_of_le_of_ne hle hne) hne

/-! ## What a dispatch comes to -/

theorem dispatch_unknown (h : ∀ r ∈ registrations, r.name ≠ name) (payload : ByteArray) :
    (ofRegistrations registrations).dispatch name payload =
      { outcome := .error s!"unknown method: {name}" } := by
  rw [dispatch, handler?_unknown h]

theorem dispatch_ofRegistrations (h : r.IsLast registrations) (payload : ByteArray) :
    (ofRegistrations registrations).dispatch r.name payload = r.handler payload := by
  rw [dispatch, handler?_ofRegistrations h]

variable {α β : Type} {method : Method α β} {handler : α → Work β} {payload : ByteArray}

theorem dispatch_method (h : (Registration.typed method handler).IsLast registrations)
    (payload : ByteArray) :
    (ofRegistrations registrations).dispatch method.name payload = typed method handler payload :=
  dispatch_ofRegistrations h payload

/-- A request that is read is handed to the handler of requests. -/
theorem typed_of_decode {request : α} (h : method.request.decode payload = .ok request) :
    (typed method handler payload).Does (handler request) method.response.write := by
  unfold typed
  rw [h]
  exact (handler request).does_map method.response.write

theorem typed_of_refused {fault : Fault} (h : method.request.decode payload = .error fault) :
    (typed method handler payload).Refuses
      ("bad " ++ method.name ++ " request: " ++ fault.message) := by
  unfold typed
  rw [h]
  exact ⟨rfl, rfl, rfl, rfl⟩

structure Refines (registrations : List Registration) (router : Router) : Prop where
  increasing : router.methods.Pairwise (· < ·)
  listed : ∀ name, name ∈ router.methods ↔ ∃ r ∈ registrations, r.name = name
  /-- A name that is listed has a last registration, to which one of what follows applies. -/
  settled : ∀ name ∈ router.methods, ∃ last : Registration,
    last.IsLast registrations ∧ last.name = name
  unknown : ∀ name payload, (∀ r ∈ registrations, r.name ≠ name) →
    (router.dispatch name payload).Refuses ("unknown method: " ++ name)
  /-- A handler of payloads gets the payload as it is, and what it gives is the answer. -/
  raw : ∀ name handler payload, (Registration.raw name handler).IsLast registrations →
    (router.dispatch name payload).Does (handler payload) .ok
  /-- A handler of requests gets the request that the payload is read as; an empty payload is read
  as nothing. -/
  asked : ∀ {α β : Type} (method : Method α β) (handler : α → Work β) (payload : ByteArray)
    (request : α), (Registration.typed method handler).IsLast registrations →
    method.request.decodeStrict
      (if payload.size = 0 then MessagePack.Writer.nothing else payload) = .ok request →
    (router.dispatch method.name payload).Does (handler request) method.response.write
  /-- It gets nothing if the payload is not read as a request. -/
  refused : ∀ {α β : Type} (method : Method α β) (handler : α → Work β) (payload : ByteArray)
    (fault : Fault), (Registration.typed method handler).IsLast registrations →
    method.request.decodeStrict
      (if payload.size = 0 then MessagePack.Writer.nothing else payload) = .error fault →
    (router.dispatch method.name payload).Refuses
      ("bad " ++ method.name ++ " request: " ++ fault.message)
  /-- Who asks for a method with a request that can be read back has the handler work on just that
  request, and reads in the answer what the handler gave, just if that can be read back too. -/
  called : ∀ {α β : Type} (method : Method α β) (handler : α → Work β) (request : α),
    (Registration.typed method handler).IsLast registrations →
    method.request.RoundTrips request →
    ∃ envelope, method.envelope? request = .ok envelope ∧
      let work := router.dispatch envelope.method envelope.payload
      work.Does (handler request) method.response.write ∧
        ∀ b, (handler request).outcome = .ok b → method.response.refusal? b = none →
          ∃ data, work.frame = .response data ∧
            (method.response? (.ok data) = .ok b ↔ method.response.RoundTrips b)

theorem refines_ofRegistrations (registrations : List Registration) :
    (ofRegistrations registrations).Refines registrations where
  increasing := methods_increasing (names_ofRegistrations registrations).1
  listed name := by
    rw [mem_methods]
    exact (names_ofRegistrations registrations).2 name
  settled name h := by
    obtain ⟨r, hr, rfl⟩ := ((names_ofRegistrations registrations).2 name).1 (mem_methods.1 h)
    exact Registration.exists_isLast hr
  unknown name payload h := by
    rw [dispatch_unknown h]
    exact ⟨rfl, rfl, rfl, rfl⟩
  raw name handler payload h := by
    have hdispatch : (ofRegistrations registrations).dispatch name payload = handler payload :=
      dispatch_ofRegistrations h payload
    rw [hdispatch]
    exact (handler payload).does_self
  asked method handler payload request h hrequest := by
    rw [dispatch_method h]
    exact typed_of_decode hrequest
  refused method handler payload fault h hfault := by
    rw [dispatch_method h]
    exact typed_of_refused hfault
  called method handler request h hrequest := by
    obtain ⟨hwritten, hback⟩ := hrequest
    refine ⟨method.envelope request, ?_, ?_⟩
    · rw [Method.envelope?, Codec.write_ok hwritten]
      rfl
    · have hdoes : ((ofRegistrations registrations).dispatch method.name
          (method.request.encode request)).Does (handler request) method.response.write := by
        rw [dispatch_method h]
        exact typed_of_decode hback
      exact ⟨hdoes, fun b hb hnone => ⟨_, hdoes.value b _ hb (Codec.write_ok hnone),
        (and_iff_right hnone).symm⟩⟩

end Router

/-! ## What can be read back -/

namespace Codec

variable {α : Type} {codec : Codec α} {a : α}

theorem roundTrips_of_reads (hwritten : codec.refusal? a = none)
    (hlocal : MessagePack.Local (codec.read MessagePack.maxDepth))
    (hreads : MessagePack.Reads (codec.read MessagePack.maxDepth) (bytesOf (codec.encode a)) a)
    {flaw : MessagePack.Flaw}
    (hnothing : MessagePack.decode codec.read MessagePack.Writer.nothing = .error flaw) :
    codec.RoundTrips a := by
  have hwhole := (decode_selfDelimiting hlocal hreads hnothing).whole ByteArray.empty
  rw [ByteArray.append_empty] at hwhole
  exact ⟨hwritten, hwhole⟩

theorem roundTrips_nothing (a : Unit) : nothing.RoundTrips a := by
  have h : MessagePack.decode MessagePack.nothing MessagePack.Writer.nothing = .ok () := rfl
  unfold RoundTrips decode decodeStrict
  exact ⟨rfl, congrArg (Except.mapError _) h⟩

end Codec

theorem PingReply.roundTrips {reply : PingReply} (h : reply.IsWritable) :
    codec.RoundTrips reply :=
  Codec.roundTrips_of_reads rfl (MessagePack.Record.local_read local_store _) (reads_encode h.1 h.2)
    (MessagePack.Record.decode_nothing _)

theorem FileEntry.roundTrips {entry : FileEntry} (h : entry.name.utf8ByteSize < 2 ^ 32) :
    codec.RoundTrips entry :=
  Codec.roundTrips_of_reads rfl (MessagePack.Record.local_read local_store _) (reads_encode h 1022)
    (MessagePack.Record.decode_nothing _)

theorem Listing.roundTrips {listing : Listing} (h : listing.IsWritable) :
    codec.RoundTrips listing :=
  Codec.roundTrips_of_reads rfl (MessagePack.Record.local_read local_store _) (reads_encode h.1 h.2)
    (MessagePack.Record.decode_nothing _)

namespace Router

/-- **A router is the table of its last registrations.** It lists the names that were registered,
each once and in order. A name that was not is refused, and no handler does anything. For any other
name the handler that was registered last is the one that works: one of payloads on the payload as
it is; one of requests on the request that the payload is read as, or not at all, with an error that
names the method. What such a handler gives is the answer as it is written, or the reason why it
cannot be written. A call of a method is thus the call of its handler, for every request that is
read back: such are all requests and responses of the methods that there are, if their lengths can
be written. -/
theorem dispatch_refines :
    (∀ registrations, (ofRegistrations registrations).Refines registrations) ∧
      (∀ nothing : Unit, Codec.nothing.RoundTrips nothing) ∧
      (∀ reply : PingReply, reply.IsWritable → PingReply.codec.RoundTrips reply) ∧
      (∀ entry : FileEntry, entry.name.utf8ByteSize < 2 ^ 32 →
        FileEntry.codec.RoundTrips entry) ∧
      ∀ listing : Listing, listing.IsWritable → Listing.codec.RoundTrips listing :=
  ⟨refines_ofRegistrations, Codec.roundTrips_nothing, fun _ => PingReply.roundTrips,
    fun _ => FileEntry.roundTrips, fun _ => Listing.roundTrips⟩

/-- The method that asks for the listing of one entry. -/
def stat : Method FileEntry Listing :=
  ⟨"stat", FileEntry.codec, Listing.codec⟩

/-- List an entry that has links, and take half a second for it. -/
def listOne (entry : FileEntry) : Work Listing where
  outcome := if entry.links = 0 then .error ("no links: " ++ entry.name) else .ok ⟨[entry]⟩
  duration := some 500
  started := ["start stat"]

/-- The method that asks for a text, of few bytes. -/
def greet : Method Unit String where
  name := "greet"
  request := Codec.nothing
  response :=
    { Codec.text with
      refusal? text := if 8 < text.utf8ByteSize then some (.malformed "too long") else none }

/-- A method is registered twice, first for payloads and then for requests, with others around it.
One of them gives what cannot be written. -/
theorem dispatch_refines_overwritten :
    let registrations : List Registration :=
      [.raw "stat" fun payload => { outcome := .ok payload }, .typed .ping fun _ =>
        { outcome := .ok ⟨version, none⟩ }, .typed stat listOne,
        .typed greet fun _ => { outcome := .ok "good morning" }]
    let router := ofRegistrations registrations
    let entry : FileEntry := ⟨"etc", 0o40755, 7, 2⟩
    (router.dispatch "nope" ByteArray.empty).Refuses "unknown method: nope" ∧
      (router.dispatch "stat" ByteArray.empty).Refuses
        ("bad stat request: Malformed call payload: " ++
          "invalid type: unit value, expected struct DirEntry") ∧
      (router.dispatch "greet" ByteArray.empty).frame =
        .error "Malformed call payload: too long" ∧
      (router.dispatch "stat" (FileEntry.codec.encode entry)).Does (listOne entry)
        Listing.codec.write ∧
      ∃ data, (router.dispatch "stat" (FileEntry.codec.encode entry)).frame = .response data ∧
        stat.response? (.ok data) = .ok ⟨[entry]⟩ := by
  intro registrations router entry
  obtain ⟨hrefines, hnothing, -, hentry, hlisting⟩ := dispatch_refines
  have hlast : (Registration.typed stat listOne).IsLast registrations := by
    refine ⟨registrations.take 2, registrations.drop 3, rfl, ?_⟩
    intro later hlater
    rw [List.mem_singleton.1 (show later ∈ [Registration.typed greet _] from hlater)]
    decide
  have hgreet : (Registration.typed greet fun _ =>
      { outcome := .ok "good morning" }).IsLast registrations :=
    ⟨registrations.take 3, [], rfl, nofun⟩
  have hunknown : ∀ r ∈ registrations, r.name ≠ "nope" := by
    intro r hr
    have hname : r.name ∈ registrations.map Registration.name := List.mem_map_of_mem hr
    have hnames : registrations.map Registration.name = ["stat", "ping", "stat", "greet"] := rfl
    rw [hnames] at hname
    intro hnope
    rw [hnope] at hname
    revert hname
    decide
  obtain ⟨_, henvelope, hdoes, hanswer⟩ := (hrefines registrations).called stat listOne entry hlast
    (hentry entry (by decide))
  cases henvelope
  obtain ⟨data, hframe, hback⟩ := hanswer ⟨[entry]⟩ rfl rfl
  have hwritable : Listing.IsWritable ⟨[entry]⟩ := by
    refine ⟨by decide, fun other hother => ?_⟩
    rw [List.mem_singleton.1 hother]
    decide
  have hrefused := (hrefines registrations).refused stat listOne ByteArray.empty _ hlast rfl
  have hasked := (hrefines registrations).asked greet _ ByteArray.empty () hgreet
    (hnothing ()).2
  exact ⟨(hrefines registrations).unknown "nope" _ hunknown, hrefused,
    hasked.unwritten "good morning" (.malformed "too long") rfl rfl, hdoes, data, hframe,
    hback.2 (hlisting _ hwritable)⟩

end Router

end Switchboard
