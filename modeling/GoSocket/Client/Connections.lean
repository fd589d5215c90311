import GoSocket.Foundation.Tally
import GoSocket.Connect.DnsQuery
import GoSocket.Connect.Descriptors
import GoSocket.Connect.Race
import Mathlib.Data.List.Count

/-!
# The connections of a client

The sessions of a client, one behind the other.  `__RunConnect` looks the host up,
fills `addrs` until there are three, and lets them race; what wins is `_socket`,
which `__Run` closes at its end.  The threads of the lookups outlive the sessions.
`InitHostAndPort` is called once, and nobody else uses `SharedQuery`: a lookup for
another host would leave its addresses in `_cacheIps`.
-/

namespace GoSocket.Client

open GoSocket.Foundation GoSocket.Connect

/-- What `InitHostAndPort` stores. -/
structure Endpoint where
  host : String
  backupIp : String
  port : UInt16
  isTls : Bool
  -- `WITH_SSL` is defined
  withSSL : Bool
  deriving DecidableEq, Repr

def initHostAndPort (withSSL : Bool) (host backupIp : String) (port : UInt16)
    (isTls : Bool) : Endpoint where
  host
  backupIp
  port
  isTls := withSSL && isTls
  withSSL

def Endpoint.query (self : Endpoint) : Query where
  hostName := self.host
  backupIp := self.backupIp

/-- `kConnectTimeout`, `kConnectInterval`, `kConnectErrorInterval` and
`kMaxConnectNum`. -/
def kComplexConnect : ComplexConnect where
  timeout := 10000
  interval := 4000
  errorInterval := 0
  maxConnect := 3

/-- The loop that fills `addrs`, which lacks so many; `none` where it reads behind the
end of `ips`. -/
def fillAddrs (ips : List String) (port : UInt16) (isTls : Bool) :
    Nat → Nat → Option (List AddrInfo)
  | 0, _ => some []
  | missing + 1, ipIndex => do
      let ip ← ips[ipIndex]?
      let ipIndex := if ipIndex + 1 ≥ ips.length then 0 else ipIndex + 1
      let addrs ← fillAddrs ips port isTls missing ipIndex
      return { ip, port, isTls } :: addrs

/-- Where `__Run` stands. -/
inductive SessionPc where
  | idle
  | getHostByName
  | fill (resolution : Resolution)
  -- `addrs` reads behind the end of `ips`
  | outOfRange
  | connect (resolution : Resolution) (race : ConnectImpatient)
  -- the rest, until `_socket` is closed
  | running
  deriving DecidableEq, Repr

inductive SessionAction where
  | start (noNet : Bool)
  | dns (action : DnsAction)
  | fill (curTime : UInt64)
  | connect (action : ImpatientAction)
  | connected
  | close
  deriving DecidableEq, Repr

structure Connections where
  endpoint : Endpoint
  dns : DnsQuery := {}
  pc : SessionPc := .idle
  socket : Option ConnSocket := none
  fds : List Nat := []
  deriving DecidableEq, Repr

namespace Connections

/-- What `GetHostByName` returns in a step, if it does: `some none` is false. -/
def returned? (before after : DnsQuery) : Option (Option Resolution) :=
  if before.pc ≠ .idle ∧ after.pc = .idle then
    if after.resolutions.length = before.resolutions.length then some none
    else some after.resolutions.head?
  else none

def socketFds (self : Connections) : List Nat :=
  (self.socket.map ConnSocket.socket).toList

def step (self : Connections) : SessionAction → Option Connections
  | .start noNet =>
      match self.pc with
      | .idle =>
          if noNet ∨ self.endpoint.host = "" ∨ self.endpoint.backupIp = "" then
            some { self with pc := .running }
          else
            (self.dns.step (.query (.getHostByName self.endpoint.query))).map fun dns =>
              { self with dns, pc := .getHostByName }
      | _ => none
  -- the call is `start`'s
  | .dns (.query (.getHostByName _)) => none
  | .dns action =>
      (self.dns.step action).map fun dns =>
        match returned? self.dns dns with
        | none => { self with dns }
        | some none => { self with dns, pc := .running }
        | some (some resolution) => { self with dns, pc := .fill resolution }
  | .fill curTime =>
      match self.pc with
      | .fill resolution =>
          match fillAddrs (resolution.ips.map Prod.snd) self.endpoint.port
              self.endpoint.isTls 3 0 with
          | none => some { self with pc := .outOfRange }
          | some addrs =>
              let race :=
                ConnectImpatient.start kComplexConnect self.endpoint.withSSL addrs curTime
              some { self with pc := .connect resolution { race with fds := self.fds } }
      | _ => none
  | .connect action =>
      match self.pc with
      | .connect resolution race =>
          (race.step action).map fun race =>
            { self with pc := .connect resolution race, fds := race.fds }
      | _ => none
  | .connected =>
      match self.pc with
      | .connect _ race =>
          if race.pc = .returned then
            some { self with pc := .running, socket := race.retSocket }
          else none
      | _ => none
  | .close =>
      match self.pc with
      | .running =>
          some { self with
            pc := .idle, socket := none, fds := self.fds.diff self.socketFds }
      | _ => none

def init (endpoint : Endpoint) : Connections := { endpoint }

end Connections

/-! ## The addresses -/

/-- Three addresses, the names in turn and from the first one again. -/
structure Filled (ips : List String) (endpoint : Endpoint) (addrs : List AddrInfo) :
    Prop where
  length : addrs.length = 3
  each : ∀ i < 3, ∃ ip, ips[i % ips.length]? = some ip ∧
    addrs[i]? = some { ip, port := endpoint.port, isTls := endpoint.isTls }

theorem fillAddrs_some {ips : List String} (port : UInt16) (isTls : Bool)
    (missing : Nat) {ipIndex : Nat} (hlt : ipIndex < ips.length) :
    ∃ addrs, fillAddrs ips port isTls missing ipIndex = some addrs ∧
      addrs.length = missing ∧ ∀ i < missing, ∃ ip,
        ips[(ipIndex + i) % ips.length]? = some ip ∧
          addrs[i]? = some { ip, port, isTls } := by
  induction missing generalizing ipIndex with
  | zero => exact ⟨[], rfl, rfl, nofun⟩
  | succ missing ih =>
      let next := if ipIndex + 1 ≥ ips.length then 0 else ipIndex + 1
      have hnext : next < ips.length ∧ next = (ipIndex + 1) % ips.length := by
        unfold next
        split
        · have heq : ipIndex + 1 = ips.length := by omega
          rw [heq, Nat.mod_self]
          exact ⟨by omega, rfl⟩
        · next hlt' => exact ⟨by omega, (Nat.mod_eq_of_lt (by omega)).symm⟩
      obtain ⟨rest, hrest, hlength, heach⟩ := ih hnext.1
      have hget : ips[ipIndex]? = some ips[ipIndex] := List.getElem?_eq_getElem hlt
      refine ⟨{ ip := ips[ipIndex], port, isTls } :: rest, ?_, by simp [hlength],
        fun i hi => ?_⟩
      · simp only [fillAddrs, hget]
        show (do
          let addrs ← fillAddrs ips port isTls missing next
          return ({ ip := ips[ipIndex], port, isTls } : AddrInfo) :: addrs) = _
        rw [hrest]
        rfl
      · cases i with
        | zero =>
            refine ⟨ips[ipIndex], ?_, rfl⟩
            rw [Nat.add_zero, Nat.mod_eq_of_lt hlt, hget]
        | succ i =>
            obtain ⟨ip, hip, haddr⟩ := heach i (by omega)
            refine ⟨ip, ?_, haddr⟩
            rw [← hip, hnext.2, Nat.mod_add_mod]
            congr 2
            omega

theorem fillAddrs_filled {ips : List String} (hne : ips ≠ []) (endpoint : Endpoint) :
    ∃ addrs, fillAddrs ips endpoint.port endpoint.isTls 3 0 = some addrs ∧
      Filled ips endpoint addrs := by
  obtain ⟨addrs, hfill, hlength, heach⟩ := fillAddrs_some endpoint.port endpoint.isTls 3
    (List.length_pos_iff.mpr hne)
  exact ⟨addrs, hfill, hlength, by simpa using heach⟩

/-! ## The lookup -/

namespace Connections

theorem returned?_of_busy {s t : DnsQuery} {query : Query}
    (hquery : t.pc.query? = some query) : returned? s t = none := by
  unfold returned?
  rw [if_neg]
  rintro ⟨-, hidle⟩
  rw [hidle] at hquery
  cases hquery

theorem ne_idle {s : DnsQuery} {query : Query} (hquery : s.pc.query? = some query) :
    s.pc ≠ .idle := by
  intro hidle
  rw [hidle] at hquery
  cases hquery

theorem resolution_ne_nil (query : Query) (cacheIps : List CachedIp) :
    (DnsQuery.resolution query cacheIps).ips ≠ [] := by
  unfold DnsQuery.resolution
  cases cacheIps <;> simp

theorem queryStep_idle {s t : DnsQuery} {event : QueryEvent} (hidle : s.pc = .idle)
    (hs : s.queryStep event = some t) : ∃ query, event = .getHostByName query := by
  unfold DnsQuery.queryStep at hs
  rw [hidle] at hs
  cases event with
  | getHostByName query => exact ⟨query, rfl⟩
  | _ => cases hs

theorem getHostByName_pc {s t : DnsQuery} {query : Query}
    (hs : s.queryStep (.getHostByName query) = some t) : t.pc = .getHttpDns query := by
  unfold DnsQuery.queryStep at hs
  cases hpc : s.pc with
  | idle =>
      rw [hpc] at hs
      cases hs
      rfl
  | _ =>
      rw [hpc] at hs
      cases hs

theorem asksFor_of_ne {s : DnsQuery} {action : DnsAction} (hostName : String)
    (hcall : ∀ query, action ≠ .query (.getHostByName query)) :
    DnsQuery.AsksFor hostName s action := by
  unfold DnsQuery.AsksFor
  split
  · next query => exact absurd rfl (hcall query)
  · trivial

/-- What a step of the lookup comes to. -/
structure Returns (s t : DnsQuery) (query : Query) : Prop where
  busy : returned? s t = none → t.pc.query? = some query
  failed : returned? s t = some none → t.pc = .idle
  found : ∀ resolution, returned? s t = some (some resolution) → t.pc = .idle ∧
    resolution.query = query ∧ resolution.ips ≠ [] ∧ resolution ∈ t.resolutions

theorem Returns.of_busy {s t : DnsQuery} {query : Query}
    (hquery : t.pc.query? = some query) : Returns s t query := by
  have hnone := returned?_of_busy (s := s) hquery
  constructor <;> simp [hnone, hquery]

theorem Returns.of_false {s t : DnsQuery} {query : Query}
    (hquery : s.pc.query? = some query) (hidle : t.pc = .idle)
    (hsame : t.resolutions = s.resolutions) : Returns s t query := by
  have hfalse : returned? s t = some none := by
    simp [returned?, ne_idle hquery, hidle, hsame]
  constructor <;> simp [hfalse, hidle]

theorem Returns.of_found {s t : DnsQuery} {query : Query} {ips : List (IpSource × String)}
    (hquery : s.pc.query? = some query) (hidle : t.pc = .idle) (hne : ips ≠ [])
    (hadds : t.resolutions = { query, ips } :: s.resolutions) : Returns s t query := by
  have hsome : returned? s t = some (some { query, ips }) := by
    simp [returned?, ne_idle hquery, hidle, hadds]
  refine ⟨by simp [hsome], by simp [hsome], fun resolution heq => ?_⟩
  rw [hsome] at heq
  cases heq
  exact ⟨hidle, rfl, hne, by simp [hadds]⟩

theorem httpDns_ne_nil {s t : DnsQuery} {query : Query} {event : QueryEvent}
    {ips : List String} (hpc : s.pc = .getHttpDns query)
    (hs : s.queryStep event = some t) (hidle : t.pc = .idle)
    (hadds : t.resolutions =
      { query, ips := ips.map fun ip => (.httpDns query.hostName, ip) } ::
        s.resolutions) : ips ≠ [] := by
  unfold DnsQuery.queryStep at hs
  rw [hpc] at hs
  cases event with
  | httpDns answer =>
      dsimp only at hs
      split at hs
      · cases hs
        cases hidle
      · next hempty =>
          cases hs
          rintro rfl
          simp only [List.map_nil, List.cons.injEq, Resolution.mk.injEq, and_true,
            true_and, List.map_eq_nil_iff] at hadds
          simp [hadds] at hempty
  | _ => cases hs

theorem queryStep_returns {s t : DnsQuery} {event : QueryEvent} {query : Query}
    (hquery : s.pc.query? = some query) (hs : s.queryStep event = some t) :
    Returns s t query := by
  have same {other : Query} {pc : QueryPc} (hpc : s.pc = pc)
      (hother : pc.query? = some other) : other = query := by
    rw [hpc, hother] at hquery
    exact Option.some_inj.mp hquery
  have hcases := DnsQuery.queryStep_cases hs
  cases hcases with
  | begins other hpc => exact absurd hpc (ne_idle hquery)
  | httpDns other ips hpc =>
      cases same hpc rfl
      have hne := httpDns_ne_nil hpc hs rfl rfl
      exact .of_found hquery rfl (by simpa using hne) rfl
  | noHttpDns other ips hpc =>
      cases same hpc rfl
      exact .of_busy rfl
  | renews other retBreaker pc hpc hnext =>
      cases same rfl (QueryPc.query?_of_renewing? hpc)
      rcases hnext with hnext | rfl
      · exact .of_busy (QueryPc.query?_of_renewing? hnext)
      · exact .of_busy rfl
  | setHostName other hpc =>
      cases same hpc rfl
      exact .of_busy rfl
  | startThread other hpc =>
      cases same hpc rfl
      exact .of_busy rfl
  | isBreak other hpc => exact .of_false hquery rfl rfl
  | select other hpc =>
      cases same hpc rfl
      exact .of_busy rfl
  | copyIps other hpc hevent =>
      cases same hpc rfl
      exact .of_found hquery rfl (resolution_ne_nil _ _) rfl

theorem resolverStep_returned? {s t : DnsQuery} {n : Nat} {event : ResolverEvent}
    (hs : s.resolverStep n event = some t) :
    t.pc = s.pc ∧ t.resolutions = s.resolutions ∧ returned? s t = none := by
  have hsame : t.pc = s.pc ∧ t.resolutions = s.resolutions := by
    cases DnsQuery.resolverStep_cases hs <;> exact ⟨rfl, rfl⟩
  refine ⟨hsame.1, hsame.2, ?_⟩
  unfold returned?
  rw [if_neg]
  rintro ⟨hbusy, hidle⟩
  exact hbusy (hsame.1 ▸ hidle)

theorem resolutions_subset {s t : DnsQuery} {action : DnsAction}
    (hs : s.step action = some t) : s.resolutions ⊆ t.resolutions := by
  cases action with
  | query event => cases DnsQuery.queryStep_cases hs <;> simp
  | resolver n event => exact (resolverStep_returned? hs).2.1 ▸ List.Subset.refl _

/-! ## The steps -/

inductive StepCases (s : Connections) : SessionAction → Connections → Prop
  | noLookup (noNet : Bool) (hpc : s.pc = .idle) :
      StepCases s (.start noNet) { s with pc := .running }
  | lookup (noNet : Bool) (hpc : s.pc = .idle) (dns : DnsQuery)
      (hdns : s.dns.step (.query (.getHostByName s.endpoint.query)) = some dns) :
      StepCases s (.start noNet) { s with dns, pc := .getHostByName }
  | dns (action : DnsAction) (hcall : ∀ query, action ≠ .query (.getHostByName query))
      (dns : DnsQuery) (hdns : s.dns.step action = some dns)
      (hreturned : returned? s.dns dns = none) :
      StepCases s (.dns action) { s with dns }
  | dnsFails (event : QueryEvent) (dns : DnsQuery)
      (hdns : s.dns.queryStep event = some dns)
      (hcall : ∀ query, event ≠ .getHostByName query)
      (hreturned : returned? s.dns dns = some none) :
      StepCases s (.dns (.query event)) { s with dns, pc := .running }
  | dnsFinds (event : QueryEvent) (dns : DnsQuery) (resolution : Resolution)
      (hdns : s.dns.queryStep event = some dns)
      (hcall : ∀ query, event ≠ .getHostByName query)
      (hreturned : returned? s.dns dns = some (some resolution)) :
      StepCases s (.dns (.query event)) { s with dns, pc := .fill resolution }
  | outOfRange (curTime : UInt64) (resolution : Resolution)
      (hpc : s.pc = .fill resolution)
      (hfill : fillAddrs (resolution.ips.map Prod.snd) s.endpoint.port
        s.endpoint.isTls 3 0 = none) :
      StepCases s (.fill curTime) { s with pc := .outOfRange }
  | fill (curTime : UInt64) (resolution : Resolution) (hpc : s.pc = .fill resolution)
      (addrs : List AddrInfo)
      (hfill : fillAddrs (resolution.ips.map Prod.snd) s.endpoint.port
        s.endpoint.isTls 3 0 = some addrs) :
      StepCases s (.fill curTime) { s with
        pc := .connect resolution
          { ConnectImpatient.start kComplexConnect s.endpoint.withSSL addrs curTime with
            fds := s.fds } }
  | connect (action : ImpatientAction) (resolution : Resolution)
      (race race' : ConnectImpatient) (hpc : s.pc = .connect resolution race)
      (hrace : race.step action = some race') :
      StepCases s (.connect action)
        { s with pc := .connect resolution race', fds := race'.fds }
  | connected (resolution : Resolution) (race : ConnectImpatient)
      (hpc : s.pc = .connect resolution race) (hreturned : race.pc = .returned) :
      StepCases s .connected { s with pc := .running, socket := race.retSocket }
  | close (hpc : s.pc = .running) :
      StepCases s .close { s with
        pc := .idle, socket := none, fds := s.fds.diff s.socketFds }

variable {s t : Connections}

private theorem dns_cases {action : DnsAction}
    (hcall : ∀ query, action ≠ .query (.getHostByName query))
    (hs : (s.dns.step action).map (fun dns =>
      match returned? s.dns dns with
      | none => { s with dns }
      | some none => { s with dns, pc := .running }
      | some (some resolution) => { s with dns, pc := .fill resolution }) = some t) :
    StepCases s (.dns action) t := by
  obtain ⟨dns, hdns, rfl⟩ := Option.map_eq_some_iff.mp hs
  cases action with
  | resolver n event =>
      have hnone := (resolverStep_returned? hdns).2.2
      rw [hnone]
      exact .dns _ hcall dns hdns hnone
  | query event =>
      have hevent (query : Query) : event ≠ .getHostByName query := fun heq =>
        hcall query (by rw [heq])
      cases hreturned : returned? s.dns dns with
      | none => exact .dns _ hcall dns hdns hreturned
      | some found =>
          cases found with
          | none => exact .dnsFails event dns hdns hevent hreturned
          | some resolution => exact .dnsFinds event dns resolution hdns hevent hreturned

theorem step_cases {action : SessionAction} (hs : s.step action = some t) :
    StepCases s action t := by
  cases action with
  | start noNet =>
      simp only [step] at hs
      split at hs
      · next hpc =>
          split at hs
          · cases hs
            exact .noLookup noNet hpc
          · obtain ⟨dns, hdns, rfl⟩ := Option.map_eq_some_iff.mp hs
            exact .lookup noNet hpc dns hdns
      · cases hs
  | dns action =>
      cases action with
      | resolver n event => exact dns_cases (by simp) hs
      | query event =>
          cases event with
          | getHostByName query => cases hs
          | _ => exact dns_cases (by simp) hs
  | fill curTime =>
      simp only [step] at hs
      split at hs
      · next resolution hpc =>
          split at hs
          · next hfill =>
              cases hs
              exact .outOfRange curTime resolution hpc hfill
          · next addrs hfill =>
              cases hs
              exact .fill curTime resolution hpc addrs hfill
      · cases hs
  | connect action =>
      simp only [step] at hs
      split at hs
      · next resolution race hpc =>
          obtain ⟨race', hrace, rfl⟩ := Option.map_eq_some_iff.mp hs
          exact .connect action resolution race race' hpc hrace
      · cases hs
  | connected =>
      simp only [step] at hs
      split at hs
      · next resolution race hpc =>
          split at hs
          · next hreturned =>
              cases hs
              exact .connected resolution race hpc hreturned
          · cases hs
      · cases hs
  | close =>
      simp only [step] at hs
      split at hs
      · next hpc =>
          cases hs
          exact .close hpc
      · cases hs

theorem endpoint_step {action : SessionAction} (hs : s.step action = some t) :
    t.endpoint = s.endpoint := by
  cases step_cases hs <;> rfl

/-! ## The race of a session -/

/-- What the race has seen of a connector is of the address at its place. -/
def OfPlaces (addrs : List AddrInfo) (race : ConnectImpatient) : Prop :=
  ∀ i connector, .after i connector ∈ race.events → addrs[i]? = some connector.addr

theorem OfPlaces.step {addrs : List AddrInfo} {race race' : ConnectImpatient}
    {action : ImpatientAction} (h : OfPlaces addrs race) (hracing : race.Racing addrs)
    (hs : race.step action = some race') : OfPlaces addrs race' := by
  cases ConnectImpatient.step_cases hs with
  | top curTime startTime =>
      have hsame : (race.nextAddress curTime startTime).events = race.events := by
        obtain ⟨timeout, ⟨-, heq⟩ | ⟨-, -, -, heq⟩⟩ :=
          ConnectImpatient.nextAddress_cases race curTime startTime <;> rw [heq]
      exact fun i connector hmem => h i connector (hsame ▸ hmem)
  | preSelect answers tickCount i connector =>
      intro j other hmem
      refine h j other ?_
      change _ ∈ (race.callPreSelect i connector answers tickCount).events at hmem
      unfold ConnectImpatient.callPreSelect at hmem
      dsimp only at hmem
      split at hmem
      · simpa using hmem
      · exact hmem
  | leave result selTimeout hpc event hevent =>
      intro j other hmem
      rcases List.mem_cons.mp hmem with rfl | hmem
      · rcases hevent with hevent | hevent | hevent <;> cases hevent
      · exact h j other hmem
  | afterSelect answers i connector hpc hi hhas =>
      have hevents : (race.callAfterSelect i connector answers).events =
          .after i (connector.callAfterSelect answers) :: race.events := by
        unfold ConnectImpatient.callAfterSelect
        dsimp only
        split <;> rfl
      intro j other hmem
      change _ ∈ (race.callAfterSelect i connector answers).events at hmem
      rw [hevents] at hmem
      rcases List.mem_cons.mp hmem with heq | hmem
      · cases heq
        rw [(TcpConnector.callAfterSelect_cases connector answers).addr]
        exact hracing.addr i connector hhas
      · exact h j other hmem
  | close i connector => exact h
  | turn action pc => exact h

/-- The race of a session with these addresses. -/
structure Races (addrs : List AddrInfo) (race : ConnectImpatient) : Prop where
  conf : race.conf = kComplexConnect
  racing : race.Racing addrs
  ofPlaces : OfPlaces addrs race

theorem Races.start (withSSL : Bool) (addrs : List AddrInfo) (curTime : UInt64)
    (fds : List Nat) : Races addrs
      { ConnectImpatient.start kComplexConnect withSSL addrs curTime with fds } := by
  have h := ConnectImpatient.racing_start kComplexConnect withSSL addrs curTime
  refine ⟨rfl, ⟨h.length, h.addr, h.sound, h.order, h.running, h.spaced, h.connected,
    h.index, .inl ⟨rfl, nofun⟩, fun hover => ?_, h.ret, h.ended⟩, ?_⟩
  · have hopen := h.racing hover
    exact ⟨hopen.fresh, hopen.attempted, hopen.gone⟩
  · simp [OfPlaces, ConnectImpatient.start]

theorem Races.step {addrs : List AddrInfo} {race race' : ConnectImpatient}
    {action : ImpatientAction} (h : Races addrs race)
    (hs : race.step action = some race') : Races addrs race' where
  conf := (ConnectImpatient.conf_step hs).trans h.conf
  racing := ConnectImpatient.racing_step (by rw [h.conf]; decide) h.racing hs
  ofPlaces := h.ofPlaces.step h.racing hs

end Connections

/-- The addresses that a `SessionPc` knows. -/
def SessionPc.resolution? : SessionPc → Option Resolution
  | .fill resolution => some resolution
  | .connect resolution _ => some resolution
  | _ => none

namespace Connections

variable {s t : Connections}

/-- The lookup is this client's, and so are the addresses that race. -/
structure LooksUp (s : Connections) : Prop where
  dns : Reachable DnsQuery.step (DnsQuery.AsksFor s.endpoint.host) {} s.dns
  query : s.pc = .getHostByName → s.dns.pc.query? = some s.endpoint.query
  idle : s.pc ≠ .getHostByName → s.dns.pc = .idle
  found : ∀ resolution, s.pc.resolution? = some resolution →
    resolution.query = s.endpoint.query ∧ resolution.ips ≠ [] ∧
      resolution ∈ s.dns.resolutions
  inRange : s.pc ≠ .outOfRange
  races : ∀ resolution race, s.pc = .connect resolution race → ∃ addrs,
    Filled (resolution.ips.map Prod.snd) s.endpoint addrs ∧ Races addrs race

namespace LooksUp

theorem init (endpoint : Endpoint) : LooksUp (.init endpoint) where
  dns := .refl
  query := nofun
  idle _ := rfl
  found := nofun
  inRange := nofun
  races := nofun

private theorem leave (dns : DnsQuery)
    (hdns : Reachable DnsQuery.step (DnsQuery.AsksFor s.endpoint.host) {} dns)
    (hidle : dns.pc = .idle) {pc : SessionPc} (hpc : pc = .idle ∨ pc = .running)
    (socket : Option ConnSocket) (fds : List Nat) :
    LooksUp { s with dns, pc, socket, fds } := by
  refine ⟨hdns, fun hlookup => ?_, fun _ => hidle, fun resolution hsome => ?_, ?_,
    fun resolution race hrace => ?_⟩
  · rcases hpc with rfl | rfl <;> cases hlookup
  · rcases hpc with rfl | rfl <;> cases hsome
  · rcases hpc with rfl | rfl <;> simp
  · rcases hpc with rfl | rfl <;> cases hrace

private theorem goOn (h : LooksUp s) {action : DnsAction}
    (hcall : ∀ query, action ≠ .query (.getHostByName query)) {dns : DnsQuery}
    (hdns : s.dns.step action = some dns) (hreturned : returned? s.dns dns = none) :
    LooksUp { s with dns } := by
  have hpcs : (s.pc = .getHostByName → dns.pc.query? = some s.endpoint.query) ∧
      (s.pc ≠ .getHostByName → dns.pc = .idle) := by
    cases action with
    | resolver n event =>
        have hsame := (resolverStep_returned? hdns).1
        exact ⟨fun hlookup => hsame ▸ h.query hlookup, fun hne => hsame ▸ h.idle hne⟩
    | query event =>
        refine ⟨fun hlookup => (queryStep_returns (h.query hlookup) hdns).busy hreturned,
          fun hne => ?_⟩
        obtain ⟨query, rfl⟩ := queryStep_idle (h.idle hne) hdns
        exact absurd rfl (hcall query)
  refine ⟨h.dns.tail _ (asksFor_of_ne _ hcall) hdns, hpcs.1, hpcs.2,
    fun resolution hsome => ?_, h.inRange, h.races⟩
  obtain ⟨hquery, hne, hmem⟩ := h.found resolution hsome
  exact ⟨hquery, hne, resolutions_subset hdns hmem⟩

theorem pc_of_query (h : LooksUp s) {event : QueryEvent} {dns : DnsQuery}
    (hdns : s.dns.queryStep event = some dns)
    (hcall : ∀ query, event ≠ .getHostByName query) : s.pc = .getHostByName := by
  by_contra hne
  obtain ⟨query, rfl⟩ := queryStep_idle (h.idle hne) hdns
  exact hcall query rfl

private theorem fills (h : LooksUp s) {resolution : Resolution}
    (hpc : s.pc.resolution? = some resolution) : ∃ addrs,
    fillAddrs (resolution.ips.map Prod.snd) s.endpoint.port s.endpoint.isTls 3 0 =
      some addrs ∧ Filled (resolution.ips.map Prod.snd) s.endpoint addrs := by
  have hne : resolution.ips.map Prod.snd ≠ [] := by
    simpa using (h.found resolution hpc).2.1
  exact fillAddrs_filled hne s.endpoint

theorem step (h : LooksUp s) {action : SessionAction} (hs : s.step action = some t) :
    LooksUp t := by
  have looking {event : QueryEvent} {dns : DnsQuery}
      (hdns : s.dns.queryStep event = some dns)
      (hcall : ∀ query, event ≠ .getHostByName query) :
      Reachable DnsQuery.step (DnsQuery.AsksFor s.endpoint.host) {} dns ∧
        Returns s.dns dns s.endpoint.query := by
    have hasks : DnsQuery.AsksFor s.endpoint.host s.dns (.query event) :=
      asksFor_of_ne _ fun query heq => hcall query (DnsAction.query.inj heq)
    exact ⟨h.dns.tail (.query event) hasks hdns,
      queryStep_returns (h.query (h.pc_of_query hdns hcall)) hdns⟩
  cases step_cases hs with
  | noLookup noNet hpc =>
      exact leave _ h.dns (h.idle (by simp [hpc])) (.inr rfl) _ _
  | lookup noNet hpc dns hdns =>
      refine ⟨h.dns.tail (.query (.getHostByName s.endpoint.query)) rfl hdns, fun _ => ?_,
        by simp, by simp [SessionPc.resolution?], by simp, by simp⟩
      rw [getHostByName_pc hdns]
      rfl
  | dns action hcall dns hdns hreturned => exact h.goOn hcall hdns hreturned
  | dnsFails event dns hdns hcall hreturned =>
      obtain ⟨hreach, hreturns⟩ := looking hdns hcall
      exact leave dns hreach (hreturns.failed hreturned) (.inr rfl) _ _
  | dnsFinds event dns resolution hdns hcall hreturned =>
      obtain ⟨hreach, hreturns⟩ := looking hdns hcall
      obtain ⟨hidle, hquery, hne, hmem⟩ := hreturns.found resolution hreturned
      refine ⟨hreach, by simp, fun _ => hidle, ?_, by simp, by simp⟩
      rintro _ ⟨⟩
      exact ⟨hquery, hne, hmem⟩
  | outOfRange curTime resolution hpc hfill =>
      have hresolution : s.pc.resolution? = some resolution := by rw [hpc]; rfl
      obtain ⟨addrs, hsome, -⟩ := h.fills hresolution
      rw [hsome] at hfill
      cases hfill
  | fill curTime resolution hpc addrs hfill =>
      have hresolution : s.pc.resolution? = some resolution := by rw [hpc]; rfl
      have hfound := h.found resolution hresolution
      obtain ⟨addrs', hsome, hfilled⟩ := h.fills hresolution
      cases hfill.symm.trans hsome
      refine ⟨h.dns, by simp, fun _ => h.idle (by simp [hpc]), ?_, by simp, ?_⟩
      · rintro _ ⟨⟩
        exact hfound
      · rintro _ _ ⟨⟩
        exact ⟨addrs, hfilled, .start _ addrs curTime s.fds⟩
  | connect action resolution race race' hpc hrace =>
      obtain ⟨addrs, hfilled, hraces⟩ := h.races resolution race hpc
      refine ⟨h.dns, by simp, fun _ => h.idle (by simp [hpc]), ?_, by simp, ?_⟩
      · rintro _ ⟨⟩
        exact h.found resolution (by rw [hpc]; rfl)
      · rintro _ _ ⟨⟩
        exact ⟨addrs, hfilled, hraces.step hrace⟩
  | connected resolution race hpc hreturned =>
      exact leave _ h.dns (h.idle (by simp [hpc])) (.inr rfl) _ _
  | close hpc => exact leave _ h.dns (h.idle (by simp [hpc])) (.inl rfl) _ _

end LooksUp

/-- What a session races with: the addresses that its own host has, and no others. -/
structure OwnAddresses (endpoint : Endpoint) (dns : DnsQuery) (resolution : Resolution)
    (race : ConnectImpatient) (addrs : List AddrInfo) : Prop where
  query : resolution.query = endpoint.query
  comesFrom : ∀ entry ∈ resolution.ips, dns.ComesFrom endpoint.query entry
  filled : Filled (resolution.ips.map Prod.snd) endpoint addrs
  attempted : ImpatientEvent.attempts race.events <+: addrs
  connected : ∀ socket, race.retSocket = some socket → ∃ i connector,
    .after i connector ∈ race.events ∧ addrs[i]? = some connector.addr ∧
      connector.status = .ConnStatusConnected ∧ connector.socket = some socket
  unconnected : race.pc = .returned → race.retSocket = none →
    Unconnected addrs race.events

theorem LooksUp.ownAddresses (h : LooksUp s) {resolution : Resolution}
    {race : ConnectImpatient} (hpc : s.pc = .connect resolution race) :
    ∃ addrs, OwnAddresses s.endpoint s.dns resolution race addrs := by
  obtain ⟨hquery, -, hmem⟩ := h.found resolution (by rw [hpc]; rfl)
  obtain ⟨addrs, hfilled, hraces⟩ := h.races resolution race hpc
  refine ⟨addrs, hquery, fun entry hentry => ?_, hfilled,
    List.prefix_iff_eq_take.mpr hraces.racing.order, fun socket hsocket => ?_,
    fun hreturned => hraces.racing.ended (.inr hreturned)⟩
  · rw [← hquery]
    exact DnsQuery.attributed_of_oneHost h.dns resolution hmem entry hentry
  · obtain ⟨i, connector, hafter, hstatus, hheld⟩ := hraces.racing.connected socket hsocket
    exact ⟨i, connector, hafter, hraces.ofPlaces i connector hafter, hstatus, hheld⟩

/-- In every session the three addresses are those of the client's own host or its
backup, whatever threads of earlier lookups still store, and no index is out of range. -/
theorem tries_own_addresses {endpoint : Endpoint}
    (h : Reachable step AnyStep (init endpoint) s) :
    s.pc ≠ .outOfRange ∧ ∀ resolution race, s.pc = .connect resolution race →
      ∃ addrs, OwnAddresses endpoint s.dns resolution race addrs := by
  have hstep (t : Connections) (action : SessionAction) (u : Connections)
      (_ : Reachable step AnyStep (init endpoint) t)
      (hbefore : LooksUp t ∧ t.endpoint = endpoint) (_ : AnyStep t action)
      (hs : t.step action = some u) : LooksUp u ∧ u.endpoint = endpoint :=
    ⟨hbefore.1.step hs, (endpoint_step hs).trans hbefore.2⟩
  obtain ⟨hlooks, rfl⟩ := h.invariant ⟨.init endpoint, rfl⟩ hstep
  exact ⟨hlooks.inRange, fun _ _ => hlooks.ownAddresses⟩

def exampleHost : Endpoint :=
  initHostAndPort false "example.com" "10.0.0.1" 443 true

def resolves : List SessionAction :=
  [.start false, .dns (.query (.httpDns [])), .dns (.query (.read false)), .dns (.query .none),
    .dns (.query .none), .dns (.query (.pipe true)), .dns (.query (.pipe true)),
    .dns (.query .none), .dns (.query .none), .dns (.resolver 0 .none),
    .dns (.resolver 0 (.answer (some ["1.1.1.1"]))), .dns (.resolver 0 .none),
    .dns (.resolver 0 .none), .dns (.resolver 0 .none),
    .dns (.resolver 0 (.write true)), .dns (.query (.selected .ready)),
    .dns (.query .none), .fill 5000]

def connects : List SessionAction :=
  [.top 5000 5000, .preSelect { socketFd := some 4, tickCount := 5000 } 5000,
    .preSelect {} 0, .select .done,
    .afterSelect { ready := { writeFdIsSet := true }, tickCount := 5000 }, .check,
    .close, .close, .close, .close].map .connect

theorem tries_own_addresses_connected : ∃ s resolution race addrs,
    run step (init exampleHost) (resolves ++ connects) = some s ∧
      s.pc = .connect resolution race ∧ race.pc = .returned ∧
      race.retSocket = some { socket := 4 } ∧
      resolution.ips = [(.resolved "example.com", "1.1.1.1")] ∧
      OwnAddresses exampleHost s.dns resolution race addrs := by
  have hmap : (run step (init exampleHost) (resolves ++ connects)).map (fun s =>
      match s.pc with
      | .connect resolution race => (race.pc, race.retSocket, resolution.ips)
      | _ => (.top, none, [])) =
        some (.returned, some { socket := 4 }, [(.resolved "example.com", "1.1.1.1")]) := by
    decide +kernel
  obtain ⟨s, hrun, heq⟩ := Option.map_eq_some_iff.mp hmap
  have howns := (tries_own_addresses (Reachable.of_run hrun)).2
  cases hpc : s.pc with
  | connect resolution race =>
      rw [hpc] at heq
      obtain ⟨hreturned, hsocket, hips⟩ := Prod.mk.inj heq |>.imp_right Prod.mk.inj
      obtain ⟨addrs, haddrs⟩ := howns resolution race hpc
      exact ⟨s, resolution, race, addrs, hrun, hpc, hreturned, hsocket, hips, haddrs⟩
  | _ => simp [hpc] at heq

/-! ## The descriptors -/

def lostBy (self : Connections) : SessionAction → List Nat
  | .connect action =>
      match self.pc with
      | .connect _ race => race.lostBy action
      | _ => []
  | _ => []

/-- No `PreConnectSelect` returns early with a descriptor. -/
def NoEarlyReturn (self : Connections) : SessionAction → Prop
  | .connect action =>
      match self.pc with
      | .connect _ race => race.NoEarlyReturn action
      | _ => True
  | _ => True

theorem lostBy_eq_nil_iff (s : Connections) (action : SessionAction) :
    s.lostBy action = [] ↔ s.NoEarlyReturn action := by
  cases action with
  | connect action =>
      unfold lostBy NoEarlyReturn
      cases s.pc with
      | connect resolution race => exact race.lostBy_eq_nil_iff action
      | _ => exact iff_of_true rfl trivial
  | _ => exact iff_of_true rfl trivial

/-- The open descriptors are those of the race, or of `_socket`, and those that were
lost. -/
structure Balanced (s : Connections) (lost : List Nat) : Prop where
  race : ∀ resolution race, s.pc = .connect resolution race →
    s.fds = race.fds ∧ race.Balanced lost
  fds : (∀ resolution race, s.pc ≠ .connect resolution race) →
    ∀ fd, s.fds.count fd = s.socketFds.count fd + lost.count fd
  socket : s.pc ≠ .running → s.socket = none

namespace Balanced

variable {lost : List Nat}

theorem init (endpoint : Endpoint) : Balanced (.init endpoint) [] where
  race := nofun
  fds _ _ := rfl
  socket _ := rfl

private theorem goOn (h : Balanced s lost) (hrace : ∀ resolution race,
    s.pc ≠ .connect resolution race) (hrunning : s.pc ≠ .running) (dns : DnsQuery)
    {pc : SessionPc} (hpc : ∀ resolution race, pc ≠ .connect resolution race) :
    Balanced { s with dns, pc } lost where
  race resolution race heq := absurd heq (hpc resolution race)
  fds _ := h.fds hrace
  socket _ := h.socket hrunning

private theorem start (withSSL : Bool) (addrs : List AddrInfo) (curTime : UInt64)
    (fds : List Nat) (hfds : ∀ fd, fds.count fd = lost.count fd) :
    ConnectImpatient.Balanced
      { ConnectImpatient.start kComplexConnect withSSL addrs curTime with fds } lost := by
  have h := ConnectImpatient.balanced_start kComplexConnect withSSL addrs curTime
  refine ⟨h.sound, fun fd => ?_, h.ret, h.closed⟩
  have hheld : (ConnectImpatient.start kComplexConnect withSSL addrs curTime).held.count
      fd = 0 := by
    have hnone := h.fds fd
    rw [List.count_nil, Nat.add_zero] at hnone
    exact hnone.symm
  show fds.count fd =
    (ConnectImpatient.start kComplexConnect withSSL addrs curTime).held.count fd + _
  rw [hheld, Nat.zero_add]
  exact hfds fd

private theorem held_of_returned {race : ConnectImpatient} (h : race.Balanced lost)
    (hpc : race.pc = .returned) : race.held = race.retFds := by
  have hnil : race.connectors.flatMap ConnectImpatient.fdsOf = [] := by
    rw [List.flatMap_eq_nil_iff]
    intro x hx
    cases x with
    | none => rfl
    | some connector =>
        obtain ⟨i, hi⟩ := List.getElem?_of_mem hx
        exact absurd hpc (h.closed i connector hi).1
  rw [ConnectImpatient.held, hnil, List.nil_append]

theorem step (h : Balanced s lost) (hlooks : LooksUp s) {action : SessionAction}
    (hs : s.step action = some t) : Balanced t (s.lostBy action ++ lost) := by
  have nothing (hnot : ∀ action', action ≠ .connect action') :
      s.lostBy action ++ lost = lost := by
    cases action with
    | connect action' => exact absurd rfl (hnot action')
    | _ => rfl
  cases step_cases hs with
  | noLookup noNet hpc =>
      rw [nothing (by simp)]
      exact ⟨by simp, fun _ => h.fds (by simp [hpc]), by simp⟩
  | lookup noNet hpc dns hdns =>
      rw [nothing (by simp)]
      exact h.goOn (by simp [hpc]) (by simp [hpc]) dns (by simp)
  | dns action hcall dns hdns hreturned =>
      rw [nothing (by simp)]
      exact ⟨h.race, h.fds, h.socket⟩
  | dnsFails event dns hdns hcall hreturned =>
      rw [nothing (by simp)]
      have hpc := hlooks.pc_of_query hdns hcall
      exact h.goOn (by simp [hpc]) (by simp [hpc]) dns (by simp)
  | dnsFinds event dns resolution hdns hcall hreturned =>
      rw [nothing (by simp)]
      have hpc := hlooks.pc_of_query hdns hcall
      exact h.goOn (by simp [hpc]) (by simp [hpc]) dns (by simp)
  | outOfRange curTime resolution hpc hfill =>
      rw [nothing (by simp)]
      exact h.goOn (by simp [hpc]) (by simp [hpc]) s.dns (by simp)
  | fill curTime resolution hpc addrs hfill =>
      rw [nothing (by simp)]
      have hnone := h.socket (by simp [hpc])
      refine ⟨?_, by simp, fun _ => hnone⟩
      rintro _ _ ⟨⟩
      refine ⟨rfl, start _ addrs curTime s.fds fun fd => ?_⟩
      have hfds := h.fds (by simp [hpc]) fd
      simpa [socketFds, hnone] using hfds
  | connect action resolution race race' hpc hrace =>
      have hlost : s.lostBy (.connect action) = race.lostBy action := by
        unfold lostBy
        rw [hpc]
      rw [hlost]
      refine ⟨?_, by simp, fun _ => h.socket (by simp [hpc])⟩
      rintro _ _ ⟨⟩
      exact ⟨rfl, ConnectImpatient.balanced_step (h.race resolution race hpc).2 hrace⟩
  | connected resolution race hpc hreturned =>
      rw [nothing (by simp)]
      obtain ⟨hfds, hbalanced⟩ := h.race resolution race hpc
      refine ⟨by simp, fun _ fd => ?_, by simp⟩
      have hheld := hbalanced.fds fd
      rw [held_of_returned hbalanced hreturned] at hheld
      rw [hfds]
      exact hheld
  | close hpc =>
      rw [nothing (by simp)]
      refine ⟨by simp, fun _ fd => ?_, fun _ => rfl⟩
      have hfds := h.fds (by simp [hpc]) fd
      show (s.fds.diff s.socketFds).count fd = 0 + lost.count fd
      rw [List.count_diff]
      omega

end Balanced

variable {endpoint : Endpoint} {actions : List SessionAction}

theorem balanced_of_run (h : run step (init endpoint) actions = some s) :
    Balanced s (tally step lostBy (init endpoint) actions) := by
  have hstep (t : Connections) (action : SessionAction) (u : Connections)
      (lost : List Nat) (h : LooksUp t ∧ Balanced t lost) (_ : AnyStep t action)
      (hs : t.step action = some u) : LooksUp u ∧ Balanced u (t.lostBy action ++ lost) :=
    ⟨h.1.step hs, h.2.step h.1 hs⟩
  have hrun := tally_run hstep ⟨.init endpoint, .init endpoint⟩ (meets_anyStep _ _) h
  rw [List.append_nil] at hrun
  exact hrun.2

/-- Between two sessions exactly the descriptors are open that early returns of
`PreConnectSelect` have lost, and in a session `_socket`'s as well, however the lookups,
the races and the sessions ended. -/
theorem left_open (h : run step (init endpoint) actions = some s) :
    (s.pc = .idle → s.fds.Perm (tally step lostBy (init endpoint) actions)) ∧
      (s.pc = .running →
        s.fds.Perm (s.socketFds ++ tally step lostBy (init endpoint) actions)) ∧
      (tally step lostBy (init endpoint) actions = [] ↔
        Meets step NoEarlyReturn (init endpoint) actions) := by
  have hbalanced := balanced_of_run h
  refine ⟨fun hidle => ?_, fun hrunning => ?_, tally_eq_nil_iff lostBy_eq_nil_iff _ _⟩
  · rw [List.perm_iff_count]
    intro fd
    have hfds := hbalanced.fds (by simp [hidle]) fd
    simpa [socketFds, hbalanced.socket (by simp [hidle])] using hfds
  · rw [List.perm_iff_count]
    intro fd
    rw [List.count_append]
    exact hbalanced.fds (by simp [hrunning]) fd

def refused : List SessionAction :=
  resolves ++ [.top 5000 5000,
    .preSelect { socketFd := some 4, tickCount := 5000, connects := false } 5000,
    .preSelect {} 0, .select .isBreak, .close, .close, .close, .close].map .connect ++
    [.connected, .close]

theorem left_open_refused : ∃ s, run step (init exampleHost) refused = some s ∧
    s.pc = .idle ∧ s.fds = [4] ∧
      s.fds.Perm (tally step lostBy (init exampleHost) refused) := by
  have hmap : (run step (init exampleHost) refused).map (fun s => (s.pc, s.fds)) =
      some (.idle, [4]) := by
    decide +kernel
  obtain ⟨s, hrun, heq⟩ := Option.map_eq_some_iff.mp hmap
  obtain ⟨hpc, hfds⟩ := Prod.mk.inj heq
  exact ⟨s, hrun, hpc, hfds, (left_open hrun).1 hpc⟩

end Connections

end GoSocket.Client
