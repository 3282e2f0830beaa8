import Moligate.Channels.DisabledKeys
import Moligate.Foundation.RoundRobin

namespace Moligate.Channels.CachedPolling

open Foundation Option List

/-- The object that `GetNextEnabledKey` is called on: the one of the cache, or a row that
`GetChannelById` has loaded. -/
inductive Source where
  | cached
  | row (ch : Channel)

abbrev Reply := Except String (String × ℕ)

inductive Stage where
  | idle (reply : Option Reply)
  | request (src : Source)
  | pick (src : Source)
  | advance (src : Source) (next : ℤ) (reply : Reply)
  | unlock (reply : Reply)

inductive Action where
  -- `CacheGetChannel` or `GetRandomSatisfiedChannel`
  | selectCached
  -- `GetChannelById`, for a request that names its channel
  | loadRow
  -- the random number of `rand.Intn`
  | next (random : ℕ)
  deriving DecidableEq

/-- The table, the cache and the polling lock of the channel. Besides, what the calls have returned,
in the order in which they held the lock. -/
structure World (π : Type) where
  (channels channelsIDM : Table Channel.id)
  lock : Option π
  replies : List Reply

section

variable {π : Type} (rt : Runtime) (id : ℤ) (p : π) (w : World π)

def Source.object : Source → Option Channel
  | .cached => w.channelsIDM.find id
  | .row ch => some ch

def request (src : Source) (ch : Channel) : Option (World π × Stage) :=
  if !ch.channelInfo.isMultiKey then some (w, .idle (some (.ok (ch.key, 0))))
  else if ch.getKeys rt = [] then some (w, .idle (some (.error "no keys available")))
  else if w.lock.isNone then some ({ w with lock := some p }, .pick src)
  else none

def World.answer (reply : Reply) : World π × Stage :=
  ({ w with replies := w.replies ++ [reply] }, .unlock reply)

def pick (src : Source) (ch : Channel) (random : ℕ) : World π × Stage :=
  let enabled := enabledIdx (ch.getKeys rt) ch.channelInfo.multiKeyStatusList
  if enabled = [] then w.answer (.error "no enabled keys")
  else
    match ch.channelInfo.multiKeyMode with
    | .random => w.answer (.ok (ch.keyAt rt (enabled.getD (random % enabled.length) 0)))
    | .unset => w.answer (.ok (ch.keyAt rt (enabled.headD 0)))
    | .polling =>
      match w.channelsIDM.find id with
      | none => w.answer (.error s!"渠道# {id}，已不存在")
      | some cached =>
        let out := ch.poll rt cached.channelInfo.multiKeyPollingIndex
        (w, .advance src out.1.channelInfo.multiKeyPollingIndex (.ok (ch.keyAt rt out.2)))

def withCursor (ch : Channel) (cursor : ℤ) : Channel :=
  { ch with channelInfo := { ch.channelInfo with multiKeyPollingIndex := cursor } }

/-- The cursor is written to the object of the call, which with the cache on is saved nowhere. -/
def advance (src : Source) (next : ℤ) : World π :=
  match src with
  | .cached => { w with
      channelsIDM := w.channelsIDM.update
        (fun ch ↦ if ch.id = id then withCursor ch next else ch)
        fun ch ↦ by split <;> rfl }
  | .row _ => w

def next (random : ℕ) : Stage → Option (World π × Stage)
  | .idle _ => none
  | .request src => (src.object id w).bind (request rt p w src)
  | .pick src => (src.object id w).map fun ch ↦ pick rt id w src ch random
  | .advance src cursor reply => some ((advance id w src cursor).answer reply)
  | .unlock reply => some ({ w with lock := none }, .idle (some reply))

def Stage.isIdle : Stage → Bool
  | .idle _ => true
  | _ => false

def perform (a : Action) (stage : Stage) : Option (World π × Stage) :=
  match a with
  | .selectCached => if stage.isIdle then some (w, .request .cached) else none
  | .loadRow =>
    if stage.isIdle then (w.channels.find id).map fun row ↦ (w, .request (.row row.ofRow))
    else none
  | .next random => next rt id p w random stage

end

variable {π : Type} [DecidableEq π]

def System.step (rt : Runtime) (id : ℤ) : Config (World π) π Stage → π × Action →
    Option (Config (World π) π Stage) :=
  Config.step fun p a w stage ↦ perform rt id p w a stage

def start (channels channelsIDM : Table Channel.id) : Config (World π) π Stage :=
  ⟨⟨channels, channelsIDM, none, []⟩, fun _ ↦ .idle none⟩

section

variable (rt : Runtime) (ch : Channel)

def keyEnabled (i : ℕ) : Bool :=
  keyStatus ch.channelInfo.multiKeyStatusList i = channelStatusEnabled

def startOf (cursor : ℤ) : ℕ :=
  if cursor < 0 ∨ (ch.getKeys rt).length ≤ cursor then 0 else cursor.toNat

def pollingOrder (cursor : ℤ) : List ℕ :=
  orderFrom (keyEnabled ch) (ch.getKeys rt).length (startOf rt ch cursor)

variable {rt ch} {cursor : ℤ} {idx : ℕ}

theorem pollingOrder_perm : (pollingOrder rt ch cursor).Perm
    (enabledIdx (ch.getKeys rt) ch.channelInfo.multiKeyStatusList) :=
  (rotate_perm _ _).filter _

theorem poll_eq (h : (pollingOrder rt ch cursor).head? = some idx) :
    ch.poll rt cursor = (withCursor ch ((idx + 1) % (ch.getKeys rt).length : ℕ), idx) := by
  have hpoll : pollFrom (ch.getKeys rt) ch.channelInfo.multiKeyStatusList
      (startOf rt ch cursor) = some idx := by
    rw [pollFrom, map_range_rotate, ← h, pollingOrder, head?_orderFrom]
    rfl
  rw [startOf] at hpoll
  simp only [Channel.poll, hpoll]
  rfl

theorem pollingOrder_next (h : (pollingOrder rt ch cursor).head? = some idx) :
    pollingOrder rt ch ((idx + 1) % (ch.getKeys rt).length : ℕ) =
      (pollingOrder rt ch cursor).rotate 1 := by
  have hlt : (idx + 1) % (ch.getKeys rt).length < (ch.getKeys rt).length :=
    Nat.mod_lt _ (Nat.zero_lt_of_lt (mem_range.1 (mem_of_mem_filter
      (pollingOrder_perm.mem_iff.1 (mem_of_mem_head? h)))))
  have hstart : startOf rt ch ((idx + 1) % (ch.getKeys rt).length : ℕ) =
      (idx + 1) % (ch.getKeys rt).length := by
    rw [startOf, if_neg (by omega), Int.toNat_natCast]
  rw [pollingOrder, hstart]
  exact orderFrom_next h

end

section

variable {π : Type} (rt : Runtime) (id : ℤ) (ch : Channel)

/-- The replies so far go through the enabled keys in their order from the first cursor on, and the
cursor of the cache goes on with that order. -/
structure Turns (w : World π) (cursor : ℤ) (picks : List ℕ) : Prop where
  cached : w.channelsIDM.find id = some (withCursor ch cursor)
  replies : w.replies = picks.map fun i ↦ .ok (ch.keyAt rt i)
  cycles : Cycles (pollingOrder rt ch ch.channelInfo.multiKeyPollingIndex) picks
  order : pollingOrder rt ch cursor =
    (pollingOrder rt ch ch.channelInfo.multiKeyPollingIndex).rotate picks.length

def InTurn (w : World π) : Prop := ∃ cursor picks, Turns rt id ch w cursor picks

def Stage.Holds (p : π) (w : World π) : Stage → Prop
  | .idle _ => True
  | .request src => src = .cached
  | .pick src => src = .cached ∧ w.lock = some p
  | .advance src next reply => src = .cached ∧ w.lock = some p ∧ ∃ cursor idx,
      w.channelsIDM.find id = some (withCursor ch cursor) ∧
        (pollingOrder rt ch cursor).head? = some idx ∧
        next = ((idx + 1) % (ch.getKeys rt).length : ℕ) ∧ reply = .ok (ch.keyAt rt idx)
  | .unlock _ => w.lock = some p

def Keeps (p : π) (w w' : World π) : Prop :=
  ∀ q ≠ p, w.lock = some q → w'.lock = some q ∧ w'.channelsIDM = w.channelsIDM

abbrev Safe (p : π) (w : World π) (out : World π × Stage) : Prop :=
  Config.Safe (InTurn rt id ch) (Stage.Holds rt id ch) Keeps p w out

variable {rt id ch} {p q : π} {w w' : World π} {stage : Stage} {out : World π × Stage}

theorem Stage.Holds.stable (h : stage.Holds rt id ch q w)
    (hkeeps : w.lock = some q → w'.lock = some q ∧ w'.channelsIDM = w.channelsIDM) :
    stage.Holds rt id ch q w' := by
  cases stage with
  | idle _ => trivial
  | request src => exact h
  | pick src => exact ⟨h.1, (hkeeps h.2).1⟩
  | advance src next reply =>
    obtain ⟨hsrc, hlock, hturn⟩ := h
    obtain ⟨hlock', hcache⟩ := hkeeps hlock
    rw [← hcache] at hturn
    exact ⟨hsrc, hlock', hturn⟩
  | unlock reply => exact (hkeeps h).1

theorem Keeps.refl (p : π) (w : World π) : Keeps p w w := fun _ _ hlock ↦ ⟨hlock, rfl⟩

theorem Keeps.of_lock (h : w.lock = some p) : Keeps p w w' :=
  fun _ hq hlock ↦ absurd (some.inj (hlock.symm.trans h)) hq

theorem InTurn.congr (h : InTurn rt id ch w) (hcache : w'.channelsIDM = w.channelsIDM)
    (hreplies : w'.replies = w.replies) : InTurn rt id ch w' := by
  obtain ⟨cursor, picks, hturns⟩ := h
  exact ⟨cursor, picks, hcache ▸ hturns.cached, hreplies ▸ hturns.replies, hturns.cycles,
    hturns.order⟩

theorem find_advance {cursor next : ℤ} (h : w.channelsIDM.find id = some (withCursor ch cursor)) :
    (advance id w .cached next).channelsIDM.find id = some (withCursor ch next) := by
  rw [advance, Table.find_update, h, map_some, if_pos (Table.key_of_find h)]
  rfl

variable (hmulti : ch.channelInfo.isMultiKey = true) (hmode : ch.channelInfo.multiKeyMode = .polling)
  (henabled : enabledIdx (ch.getKeys rt) ch.channelInfo.multiKeyStatusList ≠ []) {cursor : ℤ}
  {random : ℕ}

variable (hw : InTurn rt id ch w)
include hw

include hmulti in
theorem safe_request (hout : request rt p w .cached (withCursor ch cursor) = some out) :
    Safe rt id ch p w out := by
  rw [request, if_neg (by rw [withCursor, hmulti]; decide)] at hout
  split at hout
  · cases hout
    exact ⟨hw, trivial, .refl p w⟩
  split at hout
  next hfree =>
    cases hout
    refine ⟨hw.congr rfl rfl, ⟨rfl, rfl⟩, fun q _ hlock ↦ ?_⟩
    rw [hlock] at hfree
    cases hfree
  · cases hout

include hmode henabled in
theorem safe_pick (hlock : w.lock = some p)
    (hcached : w.channelsIDM.find id = some (withCursor ch cursor)) :
    Safe rt id ch p w (pick rt id w .cached (withCursor ch cursor) random) := by
  have hne : pollingOrder rt ch cursor ≠ [] := fun hnil ↦
    henabled (perm_nil.1 (hnil ▸ pollingOrder_perm.symm))
  obtain ⟨idx, hidx⟩ : ∃ idx, (pollingOrder rt ch cursor).head? = some idx :=
    ⟨_, head?_eq_some_head hne⟩
  have hpoll : (withCursor ch cursor).poll rt cursor =
      (withCursor (withCursor ch cursor) ((idx + 1) % (ch.getKeys rt).length : ℕ), idx) :=
    poll_eq hidx
  have hpick : pick rt id w .cached (withCursor ch cursor) random =
      (w, .advance .cached ((idx + 1) % (ch.getKeys rt).length : ℕ) (.ok (ch.keyAt rt idx))) := by
    have hmode' : (withCursor ch cursor).channelInfo.multiKeyMode = .polling := hmode
    have henabled' : enabledIdx ((withCursor ch cursor).getKeys rt)
        (withCursor ch cursor).channelInfo.multiKeyStatusList ≠ [] := henabled
    simp only [pick, if_neg henabled', hmode', hcached]
    change (w, Stage.advance .cached
      ((withCursor ch cursor).poll rt cursor).1.channelInfo.multiKeyPollingIndex
      (.ok ((withCursor ch cursor).keyAt rt ((withCursor ch cursor).poll rt cursor).2))) = _
    rw [hpoll]
    rfl
  rw [hpick]
  exact ⟨hw, ⟨rfl, hlock, cursor, idx, hcached, hidx, rfl, rfl⟩, .refl p w⟩

theorem safe_advance {src : Source} {next : ℤ} {reply : Reply}
    (h : (Stage.advance src next reply).Holds rt id ch p w) :
    Safe rt id ch p w ((advance id w src next).answer reply) := by
  obtain ⟨rfl, hlock, cursor, idx, hcached, hidx, rfl, rfl⟩ := h
  obtain ⟨cursor', picks, hturns⟩ := hw
  have hcursor : withCursor ch cursor' = withCursor ch cursor :=
    some.inj (hturns.cached.symm.trans hcached)
  obtain rfl : cursor' = cursor := congrArg (fun ch ↦ ch.channelInfo.multiKeyPollingIndex) hcursor
  refine ⟨⟨((idx + 1) % (ch.getKeys rt).length : ℕ), picks ++ [idx], ?_, ?_,
    hturns.cycles.append (hturns.order ▸ hidx), ?_⟩, hlock, .of_lock hlock⟩
  · exact find_advance hcached
  · change w.replies ++ _ = _
    rw [hturns.replies, map_append, map_singleton]
  · rw [pollingOrder_next hidx, hturns.order, rotate_rotate, length_append,
      length_singleton]

include hmulti hmode henabled in
theorem safe_next (h : stage.Holds rt id ch p w) (hout : next rt id p w random stage = some out) :
    Safe rt id ch p w out := by
  have hcached := hw
  obtain ⟨cursor, picks, hturns⟩ := hcached
  cases stage with
  | idle _ => cases hout
  | request src =>
    obtain rfl : src = .cached := h
    rw [next, Source.object, hturns.cached, bind_some] at hout
    exact safe_request hmulti hw hout
  | pick src =>
    obtain ⟨rfl, hlock⟩ := h
    rw [next, Source.object, hturns.cached, map_some] at hout
    exact some.inj hout ▸ safe_pick hmode henabled hw hlock hturns.cached
  | advance src cursor reply => exact some.inj hout ▸ safe_advance hw h
  | unlock reply =>
    cases hout
    exact ⟨hw.congr rfl rfl, trivial, .of_lock h⟩

include hmulti hmode henabled in
theorem safe_perform {a : Action} (h : stage.Holds rt id ch p w) (ha : a ≠ .loadRow)
    (hout : perform rt id p w a stage = some out) : Safe rt id ch p w out := by
  cases a with
  | selectCached =>
    rw [perform] at hout
    split at hout
    · cases hout
      exact ⟨hw, rfl, .refl p w⟩
    · cases hout
  | loadRow => exact absurd rfl ha
  | next random => exact safe_next hmulti hmode henabled hw h hout

end

/-- Calls on the cached channel return enabled keys only, and `m` consecutive ones return all the `m`
enabled keys. -/
theorem polling_is_fair {π : Type} [DecidableEq π] (rt : Runtime) (id : ℤ)
    (channels channelsIDM : Table Channel.id) {ch : Channel} (hch : channelsIDM.find id = some ch)
    (hmulti : ch.channelInfo.isMultiKey = true) (hmode : ch.channelInfo.multiKeyMode = .polling)
    {m : ℕ} (hm : (enabledIdx (ch.getKeys rt) ch.channelInfo.multiKeyStatusList).length = m)
    (hpos : 1 ≤ m) {run : List (π × Action)} {c : Config (World π) π Stage}
    (hcached : ∀ a ∈ run, a.2 ≠ .loadRow)
    (hrun : exec (System.step rt id) (start channels channelsIDM) run = some c) :
    ∃ picks : List ℕ, c.shared.replies = (picks.map fun i ↦ .ok (ch.keyAt rt i)) ∧
      (∀ i ∈ picks, i ∈ enabledIdx (ch.getKeys rt) ch.channelInfo.multiKeyStatusList) ∧
      ∀ i, i + m ≤ picks.length → ((picks.drop i).take m).Nodup := by
  have henabled : enabledIdx (ch.getKeys rt) ch.channelInfo.multiKeyStatusList ≠ [] :=
    length_pos_iff.1 (by omega)
  have hstart : (start channels channelsIDM : Config (World π) π Stage).Holds
      (InTurn rt id ch) (Stage.Holds rt id ch) :=
    ⟨⟨ch.channelInfo.multiKeyPollingIndex, [], hch, rfl, fun i hi ↦ absurd hi (Nat.not_lt_zero i),
      (rotate_zero _).symm⟩, fun _ ↦ trivial⟩
  have hguard : Guarded (System.step rt id) (fun _ a ↦ a.2 ≠ .loadRow)
      (start channels channelsIDM) run := guarded_of_forall hcached
  obtain ⟨cursor, picks, hturns⟩ := (Config.exec_safe (R := Keeps)
    (fun _ _ _ _ _ hw hstage ha h ↦ safe_perform hmulti hmode henabled hw hstage ha h)
    (fun _ q _ _ _ hpq hstage hkeeps ↦ hstage.stable (hkeeps q hpq.symm)) hstart hguard hrun).1
  have hlength : (pollingOrder rt ch ch.channelInfo.multiKeyPollingIndex).length = m :=
    pollingOrder_perm.length_eq.trans hm
  have hnodup : (pollingOrder rt ch ch.channelInfo.multiKeyPollingIndex).Nodup :=
    pollingOrder_perm.nodup_iff.2 (nodup_range.filter _)
  refine ⟨picks, hturns.replies, fun i hi ↦ ?_, fun i hi ↦ ?_⟩
  · exact pollingOrder_perm.mem_iff.1 (hturns.cycles.mem hi)
  · rw [← hlength] at hi ⊢
    rw [hturns.cycles.window hi]
    exact nodup_rotate.2 hnodup

namespace Example

open Polling.Example (runtime channel)

def table : Table Channel.id := ⟨[withCursor channel 5], by simp⟩

def go (p : ℕ) : ℕ × Action := (p, .next 0)

def outcome (run : List (ℕ × Action)) : Option (List (Option ℕ)) :=
  (exec (System.step runtime 1) (start table table) run).map fun c ↦
    c.shared.replies.map fun reply ↦
      match reply with
      | .ok (_, i) => some i
      | .error _ => none

def twoRequests : List (ℕ × Action) :=
  [(0, .selectCached), (1, .selectCached), go 0, go 0, go 0, go 0, go 1, go 1, go 1, go 1]

end Example

open Example
open Polling.Example (runtime channel)

/-- Two requests for the cached channel get the two keys. -/
theorem polling_is_fair_two_requests :
    ∃ c, exec (System.step runtime 1) (start table table) twoRequests = some c ∧
      ∃ picks : List ℕ, c.shared.replies =
        (picks.map fun i ↦ .ok ((withCursor channel 5).keyAt runtime i)) ∧ picks.length = 2 ∧
          picks.Nodup := by
  obtain ⟨c, hrun, h⟩ := map_eq_some_iff.1
    (show outcome twoRequests = some [some 0, some 1] by decide +kernel)
  obtain ⟨picks, hreplies, -, hwindow⟩ := polling_is_fair runtime 1 table table
    (show table.find 1 = some (withCursor channel 5) from rfl) rfl rfl
    (show _ = 2 by decide +kernel) (by decide) (by decide) hrun
  have hlength : picks.length = 2 := by
    have hcount := congrArg length h
    rwa [hreplies, length_map, length_map] at hcount
  refine ⟨c, hrun, picks, hreplies, hlength, ?_⟩
  have hnodup := hwindow 0 (by omega)
  rwa [drop_zero, take_of_length_le (by omega)] at hnodup

/-- Two requests that name the channel load its row: the cursor that they advance is lost, and both
get the first key. -/
theorem polling_of_loaded_rows_stands_still :
    outcome [(0, .loadRow), go 0, go 0, go 0, go 0, (1, .loadRow), go 1, go 1, go 1, go 1] =
      some [some 0, some 0] := by
  decide +kernel

end Moligate.Channels.CachedPolling
