import Moligate.Sessions.Model

namespace Moligate.Sessions

open Foundation

/-- The next step of a goroutine. A read of the cache knows whether a revocation had been reported
when its call began. -/
inductive Stage where
  | idle
  -- `GetUserSessionCached`
  | getEntry (late : Bool) (entry : CacheEntry)
  | getMiss (late : Bool)
  | getQuery (late : Bool) (deadline : ℤ)
  | getLoaded (late : Bool) (deadline : ℤ) (s : Session)
  | returned (late : Bool)
  -- `CreateUserSession`
  | create (deadline : ℤ) (s : Session)
  -- `RotateUserSessionRefresh`, with the attempts that are left
  | rotate (attempts : ℕ) (r : Rotation)
  | rotateQuery (attempts : ℕ) (r : Rotation) (deadline : ℤ)
  | rotateSwap (attempts : ℕ) (r : Rotation) (deadline : ℤ) (s : Session)
  | reuseUpdate (r : Rotation) (s : Session)
  | rotateEnd (r : Rotation) (seen : Presented)
  -- the revocations; the session is the row that was read before the lock
  | revokeQuery (v : Revocation)
  | revokeLock (v : Revocation) (candidate : Option Session)
  | revokeUpdate (v : Revocation) (s : Session)
  | revokeCommit (v : Revocation) (s : Option Session)
  -- the call returns that the session is revoked; a rotation has found a reuse
  | report (r : Option Rotation)
  -- `AdvanceUserSessionAuthVersion`
  | advanceLock (a : Advance) (deadline : ℤ)
  | advanceUpdate (a : Advance) (deadline : ℤ) (s : Session)
  | advanceCommit (deadline : ℤ) (s : Session)
  -- `writeUserSessionCache` and `confirmUserSessionActiveSnapshot`
  | write (entry : CacheEntry) (deadline : Option ℤ) (k : After)
  | script (entry : CacheEntry) (deadline : Option ℤ) (expiration : ℤ) (k : After)
  | complete (entry : CacheEntry) (deadline : Option ℤ) (k : After)
  | confirm (s : Session) (k : After)
  deriving DecidableEq

inductive Action where
  | get
  | create (version userAuthVersion : ℤ) (refreshHash : String)
  | rotate (r : Rotation)
  | revoke (reason : String)
  | revokeByRefreshHash (presented reason : String)
  | revokeAll (reason : String)
  | advance (expectedVersion expectedAuthVersion nextAuthVersion : ℤ)
  | tick (nanoseconds : ℕ)
  | next | rollback
  deriving DecidableEq

section

variable (rt : Runtime) (p : ℕ) (w : World)

def World.deadline : ℤ := w.now + rt.cacheTTL

def World.row : Option Session := w.rows.read p ()

def World.autocommit (s : Session) : World :=
  { w with rows := (w.rows.write p () (some s)).commit p }

def World.markRevoked : World :=
  { w with log := { w.log with revokedAt := some (w.log.revokedAt.getD w.now) } }

def lockRow : Option (World × Option Session) :=
  if rt.rowLocks then
    if w.rows.free p () then
      some ({ w with rows := w.rows.write p () (w.row p) }, w.row p)
    else none
  else some (w, w.row p)

def After.resume (k : After) (result : WriteResult) : World × Stage :=
  match k, result with
  | .created s, .stale => (w, .confirm s k)
  | .created _, _ => (w, .idle)
  | .got late _, .ok => (w, .returned late)
  | .got _ s, .stale => (w, .confirm s k)
  | .got _ _, _ => (w, .idle)
  | .denied, _ => (w, .idle)
  | .rotated r _, .ok =>
    ({ w with log := { w.log with accepted := w.log.accepted ++ [r.presented] } },
      .rotateEnd r .current)
  | .rotated _ s, .stale => (w, .confirm s k)
  | .rotated r _, _ => (w, .rotateEnd r .current)
  | .reuseFenced r s, .ok => (w, .reuseUpdate r s)
  | .reuseFenced r _, _ => (w, .rotateEnd r .previousExpired)
  | .revokeFenced v s, .ok =>
    match v.kind with
    | .byRefreshHash _ => (w, .revokeUpdate v s)
    | _ => (w, .revokeLock v (some s))
  | .revokeFenced v _, _ =>
    match v.kind with
    | .byRefreshHash _ => ({ w with rows := w.rows.rollback p }, .idle)
    | _ => (w, .idle)
  | .advanced s, .stale => (w, .confirm s k)
  | .advanced _, _ => (w, .idle)
  | .finished v, _ =>
    match v.kind with
    | .all _ => (w, .revokeQuery v)
    | _ => (w, .report none)
  | .reuseFinished r, _ => (w, .report (some r))

def stepWrite (entry : CacheEntry) (deadline : Option ℤ) (k : After) : World × Stage :=
  match prepareWrite rt w.now entry deadline with
  | .error result => k.resume p w result
  | .ok expiration => (w, .script entry deadline expiration k)

def stepScript (entry : CacheEntry) (deadline : Option ℤ) (expiration : ℤ) (k : After) :
    World × Stage :=
  let out := writeScript w.millis entry expiration w.cache
  if out.2 then ({ w with cache := out.1 }, .complete entry deadline k)
  else k.resume p { w with cache := out.1 } .inactive

def stepConfirm (s : Session) (k : After) : World × Stage :=
  let confirmed := 0 < s.version && 0 < s.userAuthVersion && (w.row p).any fun row ↦
    row.isLive rt w.unix && row.version = s.version && row.userAuthVersion = s.userAuthVersion
  k.resume p w (if confirmed then .ok else .inactive)

def startGet : World × Stage :=
  match (liveAt w.millis w.cache).filter fun e ↦ 0 < e.version && 0 < e.userAuthVersion with
  | none => (w, .getMiss w.log.reported)
  | some entry => (w, .getEntry w.log.reported entry)

def stepGetEntry (late : Bool) (entry : CacheEntry) : Stage :=
  if entry.status ≠ .active ∨ entry.revokedAt ≠ 0 ∨ rt.expiresAt ≤ w.unix then .idle
  else .returned late

def stepGetLoaded (late : Bool) (deadline : ℤ) (s : Session) : Stage :=
  if s.isLive rt w.unix then .write s.cacheEntry (some deadline) (.got late s)
  else .write { s.cacheEntry with status := .revoked } none .denied

def stepRotateQuery (attempts : ℕ) (r : Rotation) (deadline : ℤ) : Stage :=
  match (w.row p).filter (Session.isLive rt r.now) with
  | none => .rotateEnd r .other
  | some s =>
    match s.classify r with
    | .current => .rotateSwap attempts r deadline s
    | .previousExpired =>
      .write (s.denyEntry .revoking r.now "refresh_reuse") none (.reuseFenced r s)
    | seen => .rotateEnd r seen

def stepRotateSwap (attempts : ℕ) (r : Rotation) (deadline : ℤ) (s : Session) :
    Option (World × Stage) :=
  if w.rows.free p () then
    match (w.row p).filter fun row ↦ row.isLive rt r.now && row.refreshHash = r.presented with
    | none => some (w, .rotate attempts r)
    | some row =>
      some ({ w.autocommit p (row.rotate s.refreshHash r) with
          log := { w.log with swaps := w.log.swaps ++ [(p, r.presented)] } },
        .write (s.rotate s.refreshHash r).cacheEntry (some deadline)
          (.rotated r (s.rotate s.refreshHash r)))
  else none

def stepReuseUpdate (r : Rotation) (s : Session) : Option (World × Stage) :=
  if w.rows.free p () then
    match (w.row p).filter (Session.isLive rt r.now) with
    | none => some (w, .rotateEnd r .previousExpired)
    | some row =>
      some ((w.autocommit p (row.revoke r.now "refresh_reuse")).markRevoked,
        .write (s.revoke r.now "refresh_reuse").cacheEntry none (.reuseFinished r))
  else none

/-- The rows that `RevokeUserSession` and `revokeUserSessions` look for before the lock. -/
def Revocation.selects (v : Revocation) (s : Session) : Bool :=
  match v.kind with
  | .all _ => s.status = .active && v.now < rt.expiresAt
  | _ => s.isLive rt v.now

def stepRevokeQuery (v : Revocation) : Stage :=
  match (w.row p).filter (v.selects rt), v.kind with
  | some s, _ => .write (s.denyEntry .revoking v.now v.reason) none (.revokeFenced v s)
  | none, .all true => .report none
  | none, _ => .idle

def Session.acceptsRefresh (s : Session) (now : ℤ) (presented : String) : Bool :=
  s.refreshHash = presented ||
    (s.previousRefreshHash ≠ "" && now ≤ s.previousValidUntil && s.previousRefreshHash = presented)

def stepRevokeLock (v : Revocation) (candidate : Option Session) : Option (World × Stage) :=
  (lockRow rt p w).map fun (w', row) ↦
    let released : World := { w' with rows := w'.rows.rollback p }
    match v.kind with
    | .one =>
      match row.filter (Session.isLive rt v.now), candidate with
      | some _, some s => (w', .revokeUpdate v s)
      | _, _ => (released, .idle)
    | .byRefreshHash presented =>
      match row.filter fun s ↦ s.isLive rt v.now && s.acceptsRefresh v.now presented with
      | some s => (w', .write (s.denyEntry .revoking v.now v.reason) none (.revokeFenced v s))
      | none => (released, .idle)
    | .all _ =>
      match row.filter fun s ↦ s.status = .active with
      | some s => (w', .revokeUpdate v s)
      | none => (released, .revokeQuery v)

def stepRevokeUpdate (v : Revocation) (s : Session) : Option (World × Stage) :=
  if w.rows.free p () then
    match (w.row p).filter fun row ↦ row.status = .active, v.kind with
    | some row, _ =>
      some ({ w with rows := w.rows.write p () (some (row.revoke v.now v.reason)) },
        .revokeCommit v.counted (some (s.revoke v.now v.reason)))
    | none, .all _ => some (w, .revokeCommit v (some (s.revoke v.now v.reason)))
    | none, _ => some (w, .revokeCommit v none)
  else none

def World.commit : World :=
  let revoked := (w.row p).any fun row ↦ row.status = .revoked
  { (if revoked then w.markRevoked else w) with rows := w.rows.commit p }

def stepRevokeCommit (v : Revocation) (s : Option Session) : World × Stage :=
  (w.commit p, s.elim .idle fun s ↦ .write s.cacheEntry none (.finished v))

def stepAdvanceLock (a : Advance) (deadline : ℤ) : Option (World × Stage) :=
  (lockRow rt p w).map fun (w', row) ↦
    match row.filter fun s ↦ s.status = .active && a.now < rt.expiresAt &&
      s.version = a.expectedVersion && s.userAuthVersion = a.expectedAuthVersion with
    | some s => (w', .advanceUpdate a deadline s)
    | none => ({ w' with rows := w'.rows.rollback p }, .idle)

def Session.advance (s : Session) (version : ℤ) (a : Advance) : Session :=
  { s with version, userAuthVersion := a.nextAuthVersion, lastActiveAt := a.now }

def stepAdvanceUpdate (a : Advance) (deadline : ℤ) (s : Session) : Option (World × Stage) :=
  if w.rows.free p () then
    match (w.row p).filter fun row ↦ row.status = .active && row.version = a.expectedVersion &&
      row.userAuthVersion = a.expectedAuthVersion with
    | some row =>
      some ({ w with rows := w.rows.write p () (some (row.advance (s.version + 1) a)) },
        .advanceCommit deadline (s.advance (s.version + 1) a))
    | none => some ({ w with rows := w.rows.rollback p }, .idle)
  else none

def stepAdvanceCommit (deadline : ℤ) (s : Session) : World × Stage :=
  (w.commit p, .write s.cacheEntry (some deadline) (.advanced s))

def stepCreate (deadline : ℤ) (s : Session) : Option (World × Stage) :=
  if w.rows.free p () then
    match w.row p with
    | none => some (w.autocommit p s, .write s.cacheEntry (some deadline) (.created s))
    | some _ => some (w, .idle)
  else none

def advanceStage : Stage → Option (World × Stage)
  | .idle => none
  | .getEntry late entry => some (w, stepGetEntry rt w late entry)
  | .getMiss late => some (w, .getQuery late (w.deadline rt))
  | .getQuery late deadline => some (w, (w.row p).elim .idle (.getLoaded late deadline))
  | .getLoaded late deadline s => some (w, stepGetLoaded rt w late deadline s)
  | .returned _ => some (w, .idle)
  | .create deadline s => stepCreate p w deadline s
  | .rotate 0 r => some (w, .rotateEnd r .current)
  | .rotate (attempts + 1) r => some (w, .rotateQuery attempts r (w.deadline rt))
  | .rotateQuery attempts r deadline => some (w, stepRotateQuery rt p w attempts r deadline)
  | .rotateSwap attempts r deadline s => stepRotateSwap rt p w attempts r deadline s
  | .reuseUpdate r s => stepReuseUpdate rt p w r s
  | .rotateEnd _ _ => some (w, .idle)
  | .revokeQuery v => some (w, stepRevokeQuery rt p w v)
  | .revokeLock v candidate => stepRevokeLock rt p w v candidate
  | .revokeUpdate v s => stepRevokeUpdate p w v s
  | .revokeCommit v s => some (stepRevokeCommit p w v s)
  | .report r =>
    some ({ w with log := { w.log with reported := true } },
      r.elim .idle fun r ↦ .rotateEnd r .previousExpired)
  | .advanceLock a deadline => stepAdvanceLock rt p w a deadline
  | .advanceUpdate a deadline s => stepAdvanceUpdate p w a deadline s
  | .advanceCommit deadline s => some (stepAdvanceCommit p w deadline s)
  | .write entry deadline k => some (stepWrite rt p w entry deadline k)
  | .script entry deadline expiration k => some (stepScript p w entry deadline expiration k)
  | .complete entry deadline k => some (k.resume p w (completeWrite rt w.now entry deadline))
  | .confirm s k => some (stepConfirm rt p w s k)

def Stage.inTransaction : Stage → Bool
  | .revokeUpdate _ _ | .revokeCommit _ _ | .advanceUpdate _ _ _ | .advanceCommit _ _ => true
  | _ => false

def startCall : Action → Option (World × Stage)
  | .get => some (startGet w)
  | .create version userAuthVersion refreshHash =>
    if 0 < userAuthVersion ∧ refreshHash ≠ "" ∧ w.unix < rt.expiresAt then
      some (w, .create (w.deadline rt)
        { version := if version ≤ 0 then 1 else version
          userAuthVersion, refreshHash, status := .active, lastActiveAt := w.unix })
    else none
  | .rotate r =>
    if r.presented ≠ "" ∧ r.next ≠ "" ∧ r.presented ≠ r.next ∧ 0 ≤ r.grace then
      some ({ w with log := { w.log with issued := w.log.issued ++ [(p, r.next)] } },
        .rotate 3 { r with now := if r.now ≤ 0 then w.unix else r.now })
    else none
  | .revoke reason => some (w, .revokeQuery ⟨.one, w.unix, reason⟩)
  | .revokeByRefreshHash presented reason =>
    if presented ≠ "" then
      some (w, .revokeLock ⟨.byRefreshHash presented, w.unix, reason⟩ none)
    else none
  | .revokeAll reason => some (w, .revokeQuery ⟨.all false, w.unix, reason⟩)
  | .advance expectedVersion expectedAuthVersion nextAuthVersion =>
    if 0 < expectedVersion ∧ 0 < expectedAuthVersion ∧ expectedAuthVersion < nextAuthVersion then
      some (w, .advanceLock ⟨expectedVersion, expectedAuthVersion, nextAuthVersion, w.unix⟩
        (w.deadline rt))
    else none
  | .tick ns => some ({ w with now := w.now + ns }, .idle)
  | .next | .rollback => none

def perform (a : Action) (stage : Stage) : Option (World × Stage) :=
  match a, stage with
  | .next, stage => advanceStage rt p w stage
  | .rollback, stage =>
    if stage.inTransaction then some ({ w with rows := w.rows.rollback p }, .idle) else none
  | a, .idle => startCall rt p w a
  | _, _ => none

end

abbrev System := Config World ℕ Stage

def System.step (rt : Runtime) : System → ℕ × Action → Option System :=
  Config.step fun p a w stage ↦ perform rt p w a stage

def System.start (now : ℤ) (row : Option Session) : System where
  shared := ⟨now, Rows.ofCommitted fun _ ↦ row, none, ⟨[], [], [], none, false⟩⟩
  thread _ := .idle

end Moligate.Sessions
