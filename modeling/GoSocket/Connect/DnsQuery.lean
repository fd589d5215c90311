import GoSocket.Socket.Breaker

/-!
# Looking up a host

`GetHostByName` asks the HTTP DNS first.  Else it starts a thread that resolves
`_hostName` into `_cacheIps`, and waits for it with a timeout.  The threads are
detached: one that its call has given up goes on, and shares the name, the
addresses and `_retBreaker` with the later calls.
-/

namespace GoSocket.Connect

open GoSocket.Foundation GoSocket.Socket

structure Query where
  hostName : String
  backupIp : String
  deriving DecidableEq, Repr

/-- Where an address that is returned comes from. -/
inductive IpSource where
  | httpDns (hostName : String)
  | resolved (hostName : String)
  | backup
  deriving DecidableEq, Repr

/-- An address of `_cacheIps`, behind the name it was resolved for. -/
structure CachedIp where
  hostName : String
  ip : String
  deriving DecidableEq, Repr

/-- Where `GetHostByName` stands. -/
inductive QueryPc where
  | idle
  | getHttpDns (query : Query)
  | clear (query : Query)
  | close (query : Query)
  | reset (query : Query)
  | create (query : Query)
  | configure (query : Query)
  | setHostName (query : Query)
  | startThread (query : Query)
  | select (query : Query)
  | copyIps (query : Query)
  deriving DecidableEq, Repr

/-- Where a thread stands inside `__GetIps`. -/
inductive ResolverPc where
  | start
  | getAddrInfo (hostName : String)
  | clear (hostName : String) (ips : List String)
  | pushBack (hostName : String) (ips : List String)
  | breakRet
  | finished
  deriving DecidableEq, Repr

/-- How `Select` ends. -/
inductive Selected where
  | isBreak
  | ready
  | timeout
  | error
  deriving DecidableEq, Repr

inductive QueryEvent where
  | getHostByName (query : Query)
  -- empty also where `_getHttpDns` is `NULL`
  | httpDns (ips : List String)
  -- whether whoever has the number of a closed pipe gives bytes
  | read (reads : Bool)
  | pipe (ok : Bool)
  | selected (selected : Selected)
  | none
  deriving DecidableEq, Repr

inductive ResolverEvent where
  -- `none` is an error
  | answer (ips : Option (List String))
  | write (ok : Bool)
  | none
  deriving DecidableEq, Repr

inductive DnsAction where
  | query (event : QueryEvent)
  | resolver (n : Nat) (event : ResolverEvent)
  deriving DecidableEq, Repr

/-- A call that has returned true. -/
structure Resolution where
  query : Query
  ips : List (IpSource × String)
  deriving DecidableEq, Repr

structure DnsQuery where
  hostName : String := ""
  cacheIps : List CachedIp := []
  retBreaker : Breaker := { pipe := some { nonblocking := true } }
  pc : QueryPc := .idle
  resolvers : List ResolverPc := []
  -- newest first: what the HTTP DNS and `getaddrinfo` have answered for which name
  httpDns : List (String × List String) := []
  answers : List (String × List String) := []
  resolutions : List Resolution := []
  deriving DecidableEq, Repr

namespace DnsQuery

def resolution (query : Query) (cacheIps : List CachedIp) : Resolution where
  query
  ips :=
    if cacheIps.isEmpty then [(.backup, query.backupIp)]
    else cacheIps.map fun cached => (.resolved cached.hostName, cached.ip)

def queryStep (self : DnsQuery) (event : QueryEvent) : Option DnsQuery :=
  match self.pc, event with
  | .idle, .getHostByName query => some { self with pc := .getHttpDns query }
  | .getHttpDns query, .httpDns ips =>
      let self := { self with httpDns := (query.hostName, ips) :: self.httpDns }
      if ips.isEmpty then some { self with pc := .clear query }
      else
        some { self with
          pc := .idle
          resolutions :=
            { query, ips := ips.map fun ip => (.httpDns query.hostName, ip) } ::
              self.resolutions }
  | .clear query, .read reads =>
      (self.retBreaker.clear reads).map fun (retBreaker, ret) =>
        { self with
          retBreaker, pc := if ret then .setHostName query else .close query }
  | .close query, .none =>
      some { self with retBreaker := self.retBreaker.close, pc := .reset query }
  | .reset query, .none =>
      some { self with
        retBreaker := self.retBreaker.setPipes none, pc := .create query }
  | .create query, .pipe ok =>
      some { self with
        retBreaker := self.retBreaker.setPipes (if ok then some {} else none)
        pc := if ok then .configure query else .setHostName query }
  | .configure query, .pipe ok =>
      some { self with
        retBreaker :=
          if ok then
            { self.retBreaker with
              pipe := self.retBreaker.pipe.map ({ · with nonblocking := true }) }
          else self.retBreaker.close
        pc := .setHostName query }
  | .setHostName query, .none =>
      some { self with hostName := query.hostName, pc := .startThread query }
  | .startThread query, .none =>
      some { self with resolvers := self.resolvers ++ [.start], pc := .select query }
  | .select _, .selected .isBreak => some { self with pc := .idle }
  | .select query, .selected .ready =>
      if self.retBreaker.readable then some { self with pc := .copyIps query }
      else none
  | .select query, .selected _ => some { self with pc := .copyIps query }
  | .copyIps query, .none =>
      some { self with
        pc := .idle
        resolutions := resolution query self.cacheIps :: self.resolutions }
  | _, _ => none

def resolverStep (self : DnsQuery) (n : Nat) (event : ResolverEvent) :
    Option DnsQuery :=
  let go (self : DnsQuery) (pc : ResolverPc) : DnsQuery :=
    { self with resolvers := self.resolvers.set n pc }
  match self.resolvers[n]?, event with
  | some .start, .none => some (go self (.getAddrInfo self.hostName))
  | some (.getAddrInfo _), .answer none => some (go self .breakRet)
  | some (.getAddrInfo hostName), .answer (some ips) =>
      some (go { self with answers := (hostName, ips) :: self.answers }
        (.clear hostName ips))
  | some (.clear hostName ips), .none =>
      some (go { self with cacheIps := [] } (.pushBack hostName ips))
  | some (.pushBack hostName (ip :: ips)), .none =>
      some (go { self with cacheIps := self.cacheIps ++ [{ hostName, ip }] }
        (.pushBack hostName ips))
  | some (.pushBack _ []), .none => some (go self .breakRet)
  | some .breakRet, .write ok =>
      some (go { self with retBreaker := (self.retBreaker.break_ ok).1 } .finished)
  | _, _ => none

def step (self : DnsQuery) : DnsAction → Option DnsQuery
  | .query event => self.queryStep event
  | .resolver n event => self.resolverStep n event

/-! ## What a step is -/

end DnsQuery

def QueryPc.renewing? : QueryPc → Option Query
  | .clear query => some query
  | .close query => some query
  | .reset query => some query
  | .create query => some query
  | .configure query => some query
  | _ => none

namespace DnsQuery

inductive QueryCases (s : DnsQuery) (event : QueryEvent) : DnsQuery → Prop
  | begins (query : Query) (hpc : s.pc = .idle) (hevent : event = .getHostByName query) :
      QueryCases s event { s with pc := .getHttpDns query }
  | httpDns (query : Query) (ips : List String) (hpc : s.pc = .getHttpDns query) :
      QueryCases s event { s with
        httpDns := (query.hostName, ips) :: s.httpDns
        pc := .idle
        resolutions :=
          { query, ips := ips.map fun ip => (.httpDns query.hostName, ip) } ::
            s.resolutions }
  | noHttpDns (query : Query) (ips : List String) (hpc : s.pc = .getHttpDns query) :
      QueryCases s event { s with
        httpDns := (query.hostName, ips) :: s.httpDns, pc := .clear query }
  | renews (query : Query) (retBreaker : Breaker) (pc : QueryPc)
      (hpc : s.pc.renewing? = some query)
      (hnext : pc.renewing? = some query ∨ pc = .setHostName query) :
      QueryCases s event { s with retBreaker, pc }
  | setHostName (query : Query) (hpc : s.pc = .setHostName query) :
      QueryCases s event { s with hostName := query.hostName, pc := .startThread query }
  | startThread (query : Query) (hpc : s.pc = .startThread query) :
      QueryCases s event { s with
        resolvers := s.resolvers ++ [.start], pc := .select query }
  | isBreak (query : Query) (hpc : s.pc = .select query) :
      QueryCases s event { s with pc := .idle }
  | select (query : Query) (hpc : s.pc = .select query) :
      QueryCases s event { s with pc := .copyIps query }
  | copyIps (query : Query) (hpc : s.pc = .copyIps query) (hevent : event = .none) :
      QueryCases s event { s with
        pc := .idle
        resolutions := resolution query s.cacheIps :: s.resolutions }

inductive ResolverCases (s : DnsQuery) (n : Nat) : DnsQuery → Prop
  | start (hpc : s.resolvers[n]? = some .start) :
      ResolverCases s n { s with resolvers := s.resolvers.set n (.getAddrInfo s.hostName) }
  | fail (hostName : String) (hpc : s.resolvers[n]? = some (.getAddrInfo hostName)) :
      ResolverCases s n { s with resolvers := s.resolvers.set n .breakRet }
  | answer (hostName : String) (ips : List String)
      (hpc : s.resolvers[n]? = some (.getAddrInfo hostName)) :
      ResolverCases s n { s with
        answers := (hostName, ips) :: s.answers
        resolvers := s.resolvers.set n (.clear hostName ips) }
  | clear (hostName : String) (ips : List String)
      (hpc : s.resolvers[n]? = some (.clear hostName ips)) :
      ResolverCases s n { s with
        cacheIps := [], resolvers := s.resolvers.set n (.pushBack hostName ips) }
  | pushBack (hostName ip : String) (ips : List String)
      (hpc : s.resolvers[n]? = some (.pushBack hostName (ip :: ips))) :
      ResolverCases s n { s with
        cacheIps := s.cacheIps ++ [{ hostName, ip }]
        resolvers := s.resolvers.set n (.pushBack hostName ips) }
  | stored (hostName : String) (hpc : s.resolvers[n]? = some (.pushBack hostName [])) :
      ResolverCases s n { s with resolvers := s.resolvers.set n .breakRet }
  | breakRet (retBreaker : Breaker) (hpc : s.resolvers[n]? = some .breakRet) :
      ResolverCases s n { s with retBreaker, resolvers := s.resolvers.set n .finished }

variable {s t : DnsQuery}

theorem queryStep_cases {event : QueryEvent} (hs : s.queryStep event = some t) :
    QueryCases s event t := by
  unfold queryStep at hs
  split at hs
  · next query hpc =>
      cases hs
      exact .begins query hpc rfl
  · next query ips hpc =>
      dsimp only at hs
      split at hs
      · cases hs
        exact .noHttpDns query ips hpc
      · cases hs
        exact .httpDns query ips hpc
  · next query reads hpc =>
      obtain ⟨⟨retBreaker, ret⟩, -, rfl⟩ := Option.map_eq_some_iff.mp hs
      refine .renews query retBreaker _ (by rw [hpc]; rfl) ?_
      cases ret with
      | true => exact .inr rfl
      | false => exact .inl rfl
  · next query hpc =>
      cases hs
      exact .renews query _ _ (by rw [hpc]; rfl) (.inl rfl)
  · next query hpc =>
      cases hs
      exact .renews query _ _ (by rw [hpc]; rfl) (.inl rfl)
  · next query ok hpc =>
      cases hs
      refine .renews query _ _ (by rw [hpc]; rfl) ?_
      cases ok with
      | true => exact .inl rfl
      | false => exact .inr rfl
  · next query ok hpc =>
      cases hs
      exact .renews query _ _ (by rw [hpc]; rfl) (.inr rfl)
  · next query hpc =>
      cases hs
      exact .setHostName query hpc
  · next query hpc =>
      cases hs
      exact .startThread query hpc
  · next query hpc =>
      cases hs
      exact .isBreak query hpc
  · next query hpc =>
      split at hs
      · cases hs
        exact .select query hpc
      · cases hs
  · next query selected _ _ hpc =>
      cases hs
      exact .select query hpc
  · next query hpc =>
      cases hs
      exact .copyIps query hpc rfl
  · cases hs

theorem resolverStep_cases {n : Nat} {event : ResolverEvent}
    (hs : s.resolverStep n event = some t) : ResolverCases s n t := by
  unfold resolverStep at hs
  dsimp only at hs
  split at hs
  all_goals cases hs
  · exact .start ‹_›
  · exact .fail _ ‹_›
  · exact .answer _ _ ‹_›
  · exact .clear _ _ ‹_›
  · exact .pushBack _ _ _ ‹_›
  · exact .stored _ ‹_›
  · exact .breakRet _ ‹_›

/-! ## Where the addresses come from -/

/-- The address is the HTTP DNS's or the resolver's for the name of the call, or the
call's own. -/
def ComesFrom (self : DnsQuery) (query : Query) : IpSource × String → Prop
  | (.httpDns hostName, ip) =>
      hostName = query.hostName ∧ ∃ ips, (hostName, ips) ∈ self.httpDns ∧ ip ∈ ips
  | (.resolved hostName, ip) =>
      hostName = query.hostName ∧ ∃ ips, (hostName, ips) ∈ self.answers ∧ ip ∈ ips
  | (.backup, ip) => ip = query.backupIp

def Attributed (s : DnsQuery) : Prop :=
  ∀ resolution ∈ s.resolutions, ∀ entry ∈ resolution.ips,
    s.ComesFrom resolution.query entry

/-- The threads that have stored what a call copies had asked for its name. -/
def StoredForQuery (s : DnsQuery) (action : DnsAction) : Prop :=
  match s.pc, action with
  | .copyIps query, .query .none =>
      ∀ cached ∈ s.cacheIps, cached.hostName = query.hostName
  | _, _ => True

instance (s : DnsQuery) (action : DnsAction) : Decidable (StoredForQuery s action) := by
  unfold StoredForQuery
  split <;> infer_instance

/-- What is stored, or about to be, has been an answer. -/
structure Answered (s : DnsQuery) : Prop where
  cached : ∀ cached ∈ s.cacheIps,
    ∃ ips, (cached.hostName, ips) ∈ s.answers ∧ cached.ip ∈ ips
  clear : ∀ hostName ips, .clear hostName ips ∈ s.resolvers →
    (hostName, ips) ∈ s.answers
  pushBack : ∀ hostName ips, .pushBack hostName ips ∈ s.resolvers →
    ∃ all, (hostName, all) ∈ s.answers ∧ ips ⊆ all

namespace Answered

theorem init : Answered {} where
  cached := nofun
  clear := nofun
  pushBack := nofun

private theorem go (h : Answered s) (n : Nat) (pc : ResolverPc)
    (hclear : ∀ hostName ips, pc = .clear hostName ips → (hostName, ips) ∈ s.answers)
    (hpush : ∀ hostName ips, pc = .pushBack hostName ips →
      ∃ all, (hostName, all) ∈ s.answers ∧ ips ⊆ all) :
    Answered { s with resolvers := s.resolvers.set n pc } := by
  refine ⟨h.cached, fun hostName ips hmem => ?_, fun hostName ips hmem => ?_⟩
  · rcases List.mem_or_eq_of_mem_set hmem with hmem | heq
    · exact h.clear hostName ips hmem
    · exact hclear hostName ips heq.symm
  · rcases List.mem_or_eq_of_mem_set hmem with hmem | heq
    · exact h.pushBack hostName ips hmem
    · exact hpush hostName ips heq.symm

private theorem answer (h : Answered s) (entry : String × List String) :
    Answered { s with answers := entry :: s.answers } := by
  refine ⟨fun cached hmem => ?_, fun hostName ips hmem => ?_, fun hostName ips hmem => ?_⟩
  · obtain ⟨ips, hips, hip⟩ := h.cached cached hmem
    exact ⟨ips, List.mem_cons_of_mem _ hips, hip⟩
  · exact List.mem_cons_of_mem _ (h.clear hostName ips hmem)
  · obtain ⟨all, hall, hsub⟩ := h.pushBack hostName ips hmem
    exact ⟨all, List.mem_cons_of_mem _ hall, hsub⟩

theorem query (h : Answered s) {event : QueryEvent} (hs : s.queryStep event = some t) :
    Answered t := by
  cases queryStep_cases hs with
  | startThread query hpc =>
      refine ⟨h.cached, fun hostName ips hmem => ?_, fun hostName ips hmem => ?_⟩
      · exact h.clear hostName ips (by simpa using hmem)
      · exact h.pushBack hostName ips (by simpa using hmem)
  | _ => exact ⟨h.cached, h.clear, h.pushBack⟩

theorem resolver (h : Answered s) {n : Nat} {event : ResolverEvent}
    (hs : s.resolverStep n event = some t) : Answered t := by
  cases resolverStep_cases hs with
  | answer hostName ips hpc =>
      refine (h.answer (hostName, ips)).go n (.clear hostName ips) ?_ nofun
      rintro _ _ ⟨⟩
      exact List.mem_cons_self
  | clear hostName ips hpc =>
      have hanswer := h.clear hostName ips (List.mem_of_getElem? hpc)
      have hgo := h.go n (.pushBack hostName ips) nofun fun _ _ heq => by
        cases heq
        exact ⟨ips, hanswer, List.Subset.refl ips⟩
      exact ⟨nofun, hgo.clear, hgo.pushBack⟩
  | pushBack hostName ip ips hpc =>
      obtain ⟨all, hall, hsub⟩ := h.pushBack hostName _ (List.mem_of_getElem? hpc)
      have hgo := h.go n (.pushBack hostName ips) nofun fun _ _ heq => by
        cases heq
        exact ⟨all, hall, List.Subset.trans (List.subset_cons_self ip ips) hsub⟩
      refine ⟨fun cached hmem => ?_, hgo.clear, hgo.pushBack⟩
      rcases List.mem_append.mp hmem with hmem | hmem
      · exact h.cached cached hmem
      · rw [List.mem_singleton] at hmem
        subst hmem
        exact ⟨all, hall, hsub List.mem_cons_self⟩
  | breakRet retBreaker hpc =>
      have hgo := h.go n .finished nofun nofun
      exact ⟨hgo.cached, hgo.clear, hgo.pushBack⟩
  | start hpc => exact h.go n _ nofun nofun
  | fail hostName hpc => exact h.go n _ nofun nofun
  | stored hostName hpc => exact h.go n _ nofun nofun

theorem step (h : Answered s) {action : DnsAction} (hs : s.step action = some t) :
    Answered t := by
  cases action with
  | query event => exact h.query hs
  | resolver n event => exact h.resolver hs

theorem of_reachable {ok : DnsQuery → DnsAction → Prop}
    (h : Reachable DnsQuery.step ok {} s) : Answered s :=
  h.invariant init fun _ _ _ _ hanswered _ hs => hanswered.step hs

end Answered

theorem ComesFrom.mono {query : Query} {entry : IpSource × String}
    (h : s.ComesFrom query entry) (hhttp : s.httpDns ⊆ t.httpDns)
    (hanswers : s.answers ⊆ t.answers) : t.ComesFrom query entry := by
  obtain ⟨source, ip⟩ := entry
  cases source with
  | httpDns hostName =>
      obtain ⟨heq, ips, hmem, hip⟩ := h
      exact ⟨heq, ips, hhttp hmem, hip⟩
  | resolved hostName =>
      obtain ⟨heq, ips, hmem, hip⟩ := h
      exact ⟨heq, ips, hanswers hmem, hip⟩
  | backup => exact h

theorem Attributed.mono (h : Attributed s) (hresolutions : t.resolutions = s.resolutions)
    (hhttp : s.httpDns ⊆ t.httpDns) (hanswers : s.answers ⊆ t.answers) :
    Attributed t := by
  unfold Attributed
  rw [hresolutions]
  exact fun resolution hmem entry hentry =>
    (h resolution hmem entry hentry).mono hhttp hanswers

theorem resolution_comesFrom_iff (h : Answered s) (query : Query) :
    (∀ entry ∈ (resolution query s.cacheIps).ips, s.ComesFrom query entry) ↔
      ∀ cached ∈ s.cacheIps, cached.hostName = query.hostName := by
  unfold resolution
  cases hcache : s.cacheIps with
  | nil => simp [ComesFrom]
  | cons first rest =>
      rw [← hcache]
      have hfalse : s.cacheIps.isEmpty = false := by rw [hcache]; rfl
      simp only [hfalse, Bool.false_eq_true, if_false, List.forall_mem_map]
      refine forall_congr' fun cached => forall_congr' fun hmem => ?_
      exact ⟨fun hcomes => hcomes.1, fun heq => ⟨heq, h.cached cached hmem⟩⟩

theorem attributed_query_iff (h : Answered s) (hattributed : Attributed s)
    {event : QueryEvent} (hs : s.queryStep event = some t) :
    Attributed t ↔ StoredForQuery s (.query event) := by
  have same (hpc : ∀ query, s.pc ≠ .copyIps query)
      (hresolutions : t.resolutions = s.resolutions) (hhttp : s.httpDns ⊆ t.httpDns)
      (hanswers : s.answers ⊆ t.answers) :
      Attributed t ↔ StoredForQuery s (.query event) := by
    refine iff_of_true (hattributed.mono hresolutions hhttp hanswers) ?_
    unfold StoredForQuery
    split
    · next query hcopy _ => exact absurd hcopy (hpc query)
    · trivial
  cases queryStep_cases hs with
  | httpDns query ips hpc =>
      refine iff_of_true ?_ (by simp [StoredForQuery, hpc])
      unfold Attributed
      rw [List.forall_mem_cons]
      constructor
      · intro entry hentry
        obtain ⟨ip, hip, rfl⟩ := List.mem_map.mp hentry
        exact ⟨rfl, ips, List.mem_cons_self, hip⟩
      · intro resolution hmem entry hentry
        refine (hattributed resolution hmem entry hentry).mono ?_ (List.Subset.refl _)
        exact List.subset_cons_self _ _
  | copyIps query hpc hevent =>
      subst hevent
      have hstored : StoredForQuery s (.query .none) ↔
          ∀ cached ∈ s.cacheIps, cached.hostName = query.hostName := by
        simp [StoredForQuery, hpc]
      rw [hstored, ← resolution_comesFrom_iff h query]
      unfold Attributed
      rw [List.forall_mem_cons]
      exact and_iff_left hattributed
  | renews query retBreaker pc hpc hnext =>
      refine same ?_ rfl (List.Subset.refl _) (List.Subset.refl _)
      rintro other hcopy
      rw [hcopy] at hpc
      cases hpc
  | _ => exact same (by simp [*]) rfl (by simp) (by simp)

theorem attributed_resolver (hattributed : Attributed s) {n : Nat} {event : ResolverEvent}
    (hs : s.resolverStep n event = some t) : Attributed t := by
  cases resolverStep_cases hs <;> exact hattributed.mono rfl (by simp) (by simp)

theorem attributed_step_iff (h : Answered s) (hattributed : Attributed s)
    {action : DnsAction} (hs : s.step action = some t) :
    Attributed t ↔ StoredForQuery s action := by
  cases action with
  | query event => exact attributed_query_iff h hattributed hs
  | resolver n event =>
      refine iff_of_true (attributed_resolver hattributed hs) ?_
      unfold StoredForQuery
      split
      · contradiction
      · trivial

/-- Every address that a run returns is for the name of its call exactly if what its
calls copy was stored by threads that had asked for their names. -/
theorem attributed_iff (actions : List DnsAction) :
    Throughout step Attributed {} actions ↔ Meets step StoredForQuery {} actions :=
  throughout_iff_meets (fun _ _ _ h hs => h.step hs)
    (fun _ _ _ h hattributed hs => attributed_step_iff h hattributed hs) .init
    (by simp [Attributed]) actions

def asking (query : Query) (n : Nat) : List DnsAction :=
  [.query (.getHostByName query), .query (.httpDns []), .query (.read false),
    .query .none, .query .none, .query (.pipe true), .query (.pipe true), .query .none,
    .query .none, .resolver n .none]

def storing (n : Nat) (ip : String) : List DnsAction :=
  [.resolver n (.answer (some [ip])), .resolver n .none, .resolver n .none,
    .resolver n .none, .resolver n (.write true)]

def firstQuery : Query := { hostName := "a", backupIp := "10.0.0.1" }

def secondQuery : Query := { hostName := "b", backupIp := "10.0.0.2" }

def otherHost : List DnsAction :=
  asking firstQuery 0 ++ storing 0 "1.1.1.1" ++
    [.query (.selected .ready), .query .none] ++
    [.query (.getHostByName secondQuery), .query (.httpDns []), .query (.read false),
      .query .none, .query .none, .resolver 1 .none, .resolver 1 (.answer none),
      .resolver 1 (.write true), .query (.selected .ready), .query .none]

theorem otherHost_returned :
    ¬ ∀ actions, Throughout step Attributed {} actions := by
  intro hall
  have hmap : (run step {} otherHost).map (·.resolutions.head?) =
      some (some { query := secondQuery, ips := [(.resolved "a", "1.1.1.1")] }) := by
    decide +kernel
  obtain ⟨s, hrun, hhead⟩ := Option.map_eq_some_iff.mp hmap
  have hmem := List.mem_of_head? hhead
  have hcomes := (hall otherHost).of_run hrun _ hmem _ List.mem_cons_self
  exact absurd hcomes.1 (by decide)

/-! ## One host -/

end DnsQuery

def QueryPc.query? : QueryPc → Option Query
  | .idle => none
  | .getHttpDns query => some query
  | .setHostName query => some query
  | .startThread query => some query
  | .select query => some query
  | .copyIps query => some query
  | pc => pc.renewing?

def ResolverPc.hostName? : ResolverPc → Option String
  | .getAddrInfo hostName => some hostName
  | .clear hostName _ => some hostName
  | .pushBack hostName _ => some hostName
  | _ => none

theorem QueryPc.query?_of_renewing? {pc : QueryPc} {query : Query}
    (h : pc.renewing? = some query) : pc.query? = some query := by
  cases pc <;> first | exact h | cases h

namespace DnsQuery

def AsksFor (hostName : String) (_ : DnsQuery) : DnsAction → Prop
  | .query (.getHostByName query) => query.hostName = hostName
  | _ => True

structure OneHost (hostName : String) (s : DnsQuery) : Prop where
  query : ∀ query, s.pc.query? = some query → query.hostName = hostName
  name : s.resolvers ≠ [] ∨ (∃ query, s.pc = .startThread query) →
    s.hostName = hostName
  asked : ∀ pc ∈ s.resolvers, ∀ name, pc.hostName? = some name → name = hostName
  cached : ∀ cached ∈ s.cacheIps, cached.hostName = hostName

namespace OneHost

variable {hostName : String}

theorem init : OneHost hostName {} where
  query := nofun
  name := by simp
  asked := nofun
  cached := nofun

theorem queryStep (h : OneHost hostName s) {event : QueryEvent}
    (hasks : AsksFor hostName s (.query event)) (hs : s.queryStep event = some t) :
    OneHost hostName t := by
  have moves (pc : QueryPc) (query : Query) (hpc : s.pc.query? = some query)
      (hnext : pc.query? = some query ∨ pc.query? = none)
      (hstart : ∀ query, pc ≠ .startThread query) :
      OneHost hostName { s with pc } := by
    refine ⟨fun other hother => ?_, fun hname => h.name ?_, h.asked, h.cached⟩
    · rcases hnext with hsame | hidle
      · rw [hsame] at hother
        cases hother
        exact h.query query hpc
      · rw [hidle] at hother
        cases hother
    · rcases hname with hthreads | ⟨other, hother⟩
      · exact .inl hthreads
      · exact absurd hother (hstart other)
  cases queryStep_cases hs with
  | begins query hpc hevent =>
      subst hevent
      refine ⟨?_, fun hname => h.name ?_, h.asked, h.cached⟩
      · rintro _ ⟨⟩
        exact hasks
      · rcases hname with hthreads | ⟨other, hother⟩
        · exact .inl hthreads
        · cases hother
  | setHostName query hpc =>
      have hname := h.query query (by rw [hpc]; rfl)
      refine ⟨?_, fun _ => hname, h.asked, h.cached⟩
      rintro _ ⟨⟩
      exact hname
  | startThread query hpc =>
      refine ⟨?_, fun _ => h.name (.inr ⟨query, hpc⟩), fun pc hmem => ?_, h.cached⟩
      · rintro _ ⟨⟩
        exact h.query query (by rw [hpc]; rfl)
      · rcases List.mem_append.mp hmem with hmem | hmem
        · exact h.asked pc hmem
        · rw [List.mem_singleton] at hmem
          subst hmem
          nofun
  | renews query retBreaker pc hpc hnext =>
      have hmove : OneHost hostName { s with pc } := by
        refine moves pc query (QueryPc.query?_of_renewing? hpc) (.inl ?_) ?_
        · rcases hnext with hsame | rfl
          · exact QueryPc.query?_of_renewing? hsame
          · rfl
        · rintro other rfl
          rcases hnext with hsame | hsame <;> cases hsame
      exact ⟨hmove.query, hmove.name, hmove.asked, hmove.cached⟩
  | httpDns query ips hpc =>
      have hmove := moves .idle query (by rw [hpc]; rfl) (.inr rfl) nofun
      exact ⟨hmove.query, hmove.name, hmove.asked, hmove.cached⟩
  | noHttpDns query ips hpc =>
      have hmove := moves (.clear query) query (by rw [hpc]; rfl) (.inl rfl) nofun
      exact ⟨hmove.query, hmove.name, hmove.asked, hmove.cached⟩
  | isBreak query hpc => exact moves .idle query (by rw [hpc]; rfl) (.inr rfl) nofun
  | select query hpc =>
      exact moves (.copyIps query) query (by rw [hpc]; rfl) (.inl rfl) nofun
  | copyIps query hpc hevent =>
      have hmove := moves .idle query (by rw [hpc]; rfl) (.inr rfl) nofun
      exact ⟨hmove.query, hmove.name, hmove.asked, hmove.cached⟩

theorem resolverStep (h : OneHost hostName s) {n : Nat} {event : ResolverEvent}
    (hs : s.resolverStep n event = some t) : OneHost hostName t := by
  have asked {pc : ResolverPc} {name : String} (hpc : s.resolvers[n]? = some pc)
      (hname : pc.hostName? = some name) : name = hostName :=
    h.asked pc (List.mem_of_getElem? hpc) name hname
  have go (pc pc' : ResolverPc) (hpc : s.resolvers[n]? = some pc)
      (hname : ∀ name, pc'.hostName? = some name → name = hostName) :
      OneHost hostName { s with resolvers := s.resolvers.set n pc' } := by
    have hthreads : s.resolvers ≠ [] := List.ne_nil_of_mem (List.mem_of_getElem? hpc)
    refine ⟨h.query, fun _ => h.name (.inl hthreads), fun other hmem => ?_, h.cached⟩
    rcases List.mem_or_eq_of_mem_set hmem with hmem | heq
    · exact h.asked other hmem
    · rw [heq]
      exact hname
  cases resolverStep_cases hs with
  | start hpc =>
      refine go _ _ hpc ?_
      rintro _ ⟨⟩
      exact h.name (.inl (List.ne_nil_of_mem (List.mem_of_getElem? hpc)))
  | fail name hpc => exact go _ _ hpc nofun
  | answer name ips hpc =>
      have hgo := go _ (.clear name ips) hpc fun _ heq => by
        cases heq
        exact asked hpc rfl
      exact ⟨hgo.query, hgo.name, hgo.asked, hgo.cached⟩
  | clear name ips hpc =>
      have hgo := go _ (.pushBack name ips) hpc fun _ heq => by
        cases heq
        exact asked hpc rfl
      exact ⟨hgo.query, hgo.name, hgo.asked, nofun⟩
  | pushBack name ip ips hpc =>
      have hgo := go _ (.pushBack name ips) hpc fun _ heq => by
        cases heq
        exact asked hpc rfl
      refine ⟨hgo.query, hgo.name, hgo.asked, fun cached hmem => ?_⟩
      rcases List.mem_append.mp hmem with hmem | hmem
      · exact h.cached cached hmem
      · rw [List.mem_singleton] at hmem
        subst hmem
        exact asked hpc rfl
  | stored name hpc => exact go _ _ hpc nofun
  | breakRet retBreaker hpc =>
      have hgo := go _ .finished hpc nofun
      exact ⟨hgo.query, hgo.name, hgo.asked, hgo.cached⟩

theorem step (h : OneHost hostName s) {action : DnsAction}
    (hasks : AsksFor hostName s action) (hs : s.step action = some t) :
    OneHost hostName t := by
  cases action with
  | query event => exact h.queryStep hasks hs
  | resolver n event => exact h.resolverStep hs

theorem of_reachable (h : Reachable DnsQuery.step (AsksFor hostName) {} s) :
    OneHost hostName s :=
  h.invariant init fun _ _ _ _ hone hasks hs => hone.step hasks hs

theorem stored (h : OneHost hostName s) (action : DnsAction) : StoredForQuery s action := by
  unfold StoredForQuery
  split
  · next query hpc =>
      have hname := h.query query (by rw [hpc]; rfl)
      exact fun cached hmem => (h.cached cached hmem).trans hname.symm
  · trivial

end OneHost

theorem attributed_of_oneHost {hostName : String}
    (h : Reachable step (AsksFor hostName) {} s) : Attributed s := by
  refine h.invariant (by simp [Attributed]) fun u action v hu hattributed _ hstep => ?_
  have hone : OneHost hostName u := .of_reachable hu
  have hanswered : Answered u := .of_reachable hu
  exact (attributed_step_iff hanswered hattributed hstep).mpr (hone.stored action)

end DnsQuery

end GoSocket.Connect
