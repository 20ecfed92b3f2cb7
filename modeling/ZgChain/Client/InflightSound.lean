import ZgChain.Client.Signer

/-!
# No request is lost and none is answered twice

Whatever the order of requests and account states and however the node answers, every
request the signer has taken is answered, waits in one slot, or is the current request, as
long as the sequences do not wrap around.
-/

namespace ZgChain.Client

open Slots

variable {R ε : Type} {signer : ZgChainSigner R ε} {s s' : State R ε} {last : UInt64} {bound : Nat}

/-- The transaction of the response was signed with the sequence. -/
def Signed (signer : ZgChainSigner R ε) (sequence : UInt64) (response : ZgChainMsgResponse R ε) :
    Prop :=
  ∃ accountNumber, signer.sign response.request ⟨signer.chainID, accountNumber, sequence⟩ =
    .ok response.txBytes

/-- The transaction was signed with the sequence of that number. -/
def SignedAt (signer : ZgChainSigner R ε) (n : Nat) (response : ZgChainMsgResponse R ε) : Prop :=
  ∃ sequence : UInt64, sequence.toNat = n ∧ Signed signer sequence response

/-- Each sequence the account is seen with leaves room for one more with every event. -/
def SequencesFit (account : Account) (events : List (Event R ε)) : Prop :=
  ∀ a : Account, a = account ∨ (∃ e ∈ events, e.input = .account a) →
    a.sequence.toNat + events.length < 2 ^ 64

namespace State

def waiting (s : State R ε) : List R :=
  s.inflight.reduceOption.map ZgChainMsgResponse.request ++ s.currentRequest.toList

/-- The requests that have been answered, and those that wait. -/
def requests (s : State R ε) : List R := s.responses.map ZgChainMsgResponse.request ++ s.waiting

/-- Transactions in the slots have sequences of a window that leaves room for the current
request. No sequence passes the bound, with the one that the current request will use. -/
structure Tracks (signer : ZgChainSigner R ε) (bound : Nat) (s : State R ε) : Prop where
  limit : s.inflight.length = signer.inflightTxLimit.toNat
  prev : s.prevDeliverTxSeq.toNat ≤ s.checkTxSeq.toNat
  room : s.checkTxSeq.toNat - s.prevDeliverTxSeq.toNat + s.currentRequest.toList.length ≤
    signer.inflightTxLimit.toNat
  window : Window (SignedAt signer) s.prevDeliverTxSeq.toNat s.checkTxSeq.toNat s.inflight
  fits : s.checkTxSeq.toNat + s.currentRequest.toList.length ≤ bound

/-- A part of a pass keeps the requests and takes back no response. -/
structure Moves (s s' : State R ε) : Prop where
  requests : s'.requests.Perm s.requests
  responses : s.responses <+: s'.responses

theorem Moves.refl (s : State R ε) : Moves s s := ⟨List.Perm.refl _, List.prefix_rfl⟩

theorem Moves.trans {s₁ : State R ε} (h : Moves s s₁) (h' : Moves s₁ s') : Moves s s' :=
  ⟨h'.requests.trans h.requests, h.responses.trans h'.responses⟩

theorem Moves.waiting_le (h : Moves s s') : s'.waiting.length ≤ s.waiting.length := by
  have hlength := h.requests.length_eq
  have hresponses := h.responses.length_le
  rw [State.requests, State.requests, List.length_append, List.length_append, List.length_map,
    List.length_map] at hlength
  omega

/-! ## Slots -/

/-- A response is put into a slot, sent, or both, for what the slot had and for the current
request. -/
theorem requests_perm (hlen : 0 < s.inflight.length) {n : Nat} {v : Option (ZgChainMsgResponse R ε)}
    {sent : List (ZgChainMsgResponse R ε)} {current : Option R}
    (hi : s'.inflight = put s.inflight n v) (hr : s'.responses = s.responses ++ sent)
    (hc : s'.currentRequest = current)
    (h : (sent.map ZgChainMsgResponse.request ++ v.toList.map ZgChainMsgResponse.request ++
      current.toList).Perm
      ((get s.inflight n).toList.map ZgChainMsgResponse.request ++ s.currentRequest.toList)) :
    s'.requests.Perm s.requests := by
  have hput := (put_perm hlen n v).map ZgChainMsgResponse.request
  rw [List.map_append, List.map_append] at hput
  rw [requests, requests, waiting, waiting, hi, hr, hc, List.map_append]
  -- as multisets, what the slot had cancels
  rw [← Multiset.coe_eq_coe] at h hput ⊢
  simp only [← Multiset.coe_add] at h hput ⊢
  refine add_right_cancel
    (b := ((get s.inflight n).toList.map ZgChainMsgResponse.request : Multiset R)) ?_
  rw [show ∀ r t p c g : Multiset R, r + t + (p + c) + g = r +
    (t + (p + g) + c) by intros; abel, hput,
    show ∀ t v i c : Multiset R, t + (v + i) + c = i + (t + v + c) by intros; abel, h]
  abel

theorem Tracks.length_pos (h : Tracks signer bound s) (hlimit : 0 < signer.inflightTxLimit) :
    0 < s.inflight.length := by
  rw [h.limit]
  exact UInt64.lt_iff_toNat_lt.mp hlimit

theorem toNat_next {sequence : UInt64} (h : sequence.toNat + 1 < 2 ^ 64) :
    (sequence + 1).toNat = sequence.toNat + 1 := by
  rw [UInt64.toNat_add]
  exact Nat.mod_eq_of_lt h

/-- The current request has a free slot. -/
theorem Tracks.free (h : Tracks signer bound s) (hc : s.currentRequest.isSome = true) :
    get s.inflight s.checkTxSeq.toNat = none := by
  refine h.window.free h.prev ?_
  have hroom := h.room
  obtain ⟨r, hr⟩ := Option.isSome_iff_exists.mp hc
  rw [hr] at hroom
  rw [h.limit]
  exact hroom

/-! ## Broadcasts -/

theorem afterBroadcast_request (response : ZgChainMsgResponse R ε) (reply : Reply ε) :
    (afterBroadcast response reply).1.request = response.request ∧
      (afterBroadcast response reply).1.txBytes = response.txBytes := by
  cases reply with
  | preCheck err => exact ⟨rfl, rfl⟩
  | unreachable err => exact ⟨rfl, rfl⟩
  | answer code =>
    unfold afterBroadcast
    dsimp only
    split <;> exact ⟨rfl, rfl⟩

theorem signed_congr {response response' : ZgChainMsgResponse R ε} {sequence : UInt64}
    (h : Signed signer sequence response) (hreq : response'.request = response.request)
    (hbytes : response'.txBytes = response.txBytes) : Signed signer sequence response' := by
  rwa [Signed, hreq, hbytes]

/-- A transaction is broadcast again from its slot, or the current request is for the first time. -/
inductive Attempt (signer : ZgChainSigner R ε) (s : State R ε) :
    Bool → Bool → ZgChainMsgResponse R ε → Prop where
  | again {response : ZgChainMsgResponse R ε}
      (h : get s.inflight s.broadcastTxSeq.toNat = some response) :
      Attempt signer s false true response
  | first {response : ZgChainMsgResponse R ε} (hseq : s.broadcastTxSeq = s.checkTxSeq)
      (hc : s.currentRequest = some response.request)
        (hs : Signed signer s.broadcastTxSeq response) :
      Attempt signer s true false response

/-- A turn of the loop: the state after it is tracked, and the account and delivered
sequence are as before. -/
structure Turns (signer : ZgChainSigner R ε) (bound : Nat) (last : UInt64) (s s' : State R ε) : Prop
    extends Moves s s' where
  tracks : Tracks signer bound s'
  account : s'.account = s.account
  prevDeliver : s'.prevDeliverTxSeq = s.prevDeliverTxSeq
  current : s'.currentRequest.isSome = true → s'.checkTxSeq = last

section
variable (hlimit : 0 < signer.inflightTxLimit) (h : Tracks signer bound s)
include hlimit h

section
variable (hlast : s.currentRequest.isSome = true → s.checkTxSeq = last)
include hlast

/-- The response in the slot is replaced by one for the same transaction. -/
theorem replaced_turns {response : ZgChainMsgResponse R ε}
    (hg : get s.inflight s.broadcastTxSeq.toNat = some response)
    (response' : ZgChainMsgResponse R ε) (hreq : response'.request = response.request)
    (hbytes : response'.txBytes = response.txBytes) (b : UInt64) :
    Turns signer bound last s { s with
      inflight := put s.inflight s.broadcastTxSeq.toNat (some response')
      broadcastTxSeq := b } where
  requests := by
    refine requests_perm (h.length_pos hlimit) rfl (List.append_nil _).symm rfl ?_
    rw [hg]
    simp [hreq]
  responses := List.prefix_rfl
  tracks := by
    refine ⟨(length_put _ _ _).trans h.limit, h.prev, h.room,
      h.window.replace (h.length_pos hlimit) hg fun q hq => ?_, h.fits⟩
    obtain ⟨sequence, hseq, hs⟩ := hq
    exact ⟨sequence, hseq, signed_congr hs hreq hbytes⟩
  account := rfl
  prevDeliver := rfl
  current := hlast

theorem dropped_turns {response response' : ZgChainMsgResponse R ε}
    (hg : get s.inflight s.broadcastTxSeq.toNat = some response)
    (hreq : response'.request = response.request) (b : UInt64) :
    Turns signer bound last s (respond { s with
      inflight := put s.inflight s.broadcastTxSeq.toNat none, broadcastTxSeq := b } response') where
  requests := by
    refine requests_perm (h.length_pos hlimit) rfl rfl rfl ?_
    rw [hg]
    simp [respond, hreq]
  responses := List.prefix_append _ _
  tracks := ⟨(length_put _ _ _).trans h.limit, h.prev, h.room,
    h.window.clear (h.length_pos hlimit) _, h.fits⟩
  account := rfl
  prevDeliver := rfl
  current := hlast

end

section
variable {response : ZgChainMsgResponse R ε} (response' : ZgChainMsgResponse R ε)
  (hseq : s.broadcastTxSeq = s.checkTxSeq)
  (hc : s.currentRequest = some response.request) (hreq : response'.request = response.request)
include hseq hc hreq

/-- The current request gets a slot of its own and the next sequence is to be used. -/
theorem stored_turns (hbound : bound < 2 ^ 64) (hs : Signed signer s.broadcastTxSeq response') :
    Turns signer bound last s { s with
      inflight := put s.inflight s.broadcastTxSeq.toNat (some response')
      currentRequest := none
      checkTxSeq := s.checkTxSeq + 1
      broadcastTxSeq := s.broadcastTxSeq + 1 } where
  requests := by
    have hfree := h.free (by rw [hc]; rfl)
    refine requests_perm (h.length_pos hlimit) rfl (List.append_nil _).symm rfl ?_
    rw [hseq, hfree, hc]
    simp [hreq]
  responses := List.prefix_rfl
  tracks := by
    have hroom := h.room
    have hfits := h.fits
    rw [hc] at hroom hfits
    change s.checkTxSeq.toNat - s.prevDeliverTxSeq.toNat + 1 ≤ _ at hroom
    change s.checkTxSeq.toNat + 1 ≤ _ at hfits
    have hnext := toNat_next (hfits.trans_lt hbound)
    have hprev := h.prev
    refine ⟨(length_put _ _ _).trans h.limit, ?_, ?_, ?_, ?_⟩
    · change s.prevDeliverTxSeq.toNat ≤ (s.checkTxSeq + 1).toNat
      omega
    · change (s.checkTxSeq + 1).toNat - s.prevDeliverTxSeq.toNat + 0 ≤ _
      omega
    · change Window _ _ (s.checkTxSeq + 1).toNat _
      rw [hnext]
      rw [hseq] at hs ⊢
      exact h.window.push (h.length_pos hlimit) h.prev ⟨_, rfl, hs⟩
    · change (s.checkTxSeq + 1).toNat + 0 ≤ bound
      omega
  account := rfl
  prevDeliver := rfl
  current hsome := by cases hsome

omit hlimit hseq in
/-- The current request is answered without a transaction in the mempool. -/
theorem answered_turns {slots : List (Option (ZgChainMsgResponse R ε))}
    (hw : Window (SignedAt signer) s.prevDeliverTxSeq.toNat s.checkTxSeq.toNat slots)
    (hlen : slots.length = s.inflight.length)
    (hp : slots.reduceOption.Perm s.inflight.reduceOption) :
    Turns signer bound last s (respond { s with
      inflight := slots
      currentRequest := none
      broadcastTxSeq := s.broadcastTxSeq + 1 } response') where
  requests := by
    rw [State.requests, State.requests, waiting, waiting, hc]
    simp only [respond, List.map_append, List.map_cons, List.map_nil, hreq, Option.toList_none,
      List.append_nil, Option.toList_some, List.append_assoc]
    exact (List.perm_append_comm.trans ((hp.map _).append_right _)).append_left _
  responses := List.prefix_append _ _
  tracks := ⟨hlen.trans h.limit, h.prev, (Nat.add_le_add_left (Nat.zero_le _) _).trans h.room, hw,
    (Nat.add_le_add_left (Nat.zero_le _) _).trans h.fits⟩
  account := rfl
  prevDeliver := rfl
  current hsome := by cases hsome

end

end

/-- Nothing but the broadcast sequence changes. -/
theorem unchanged_turns (h : Tracks signer bound s)
    (hlast : s.currentRequest.isSome = true → s.checkTxSeq = last) (b : UInt64) :
    Turns signer bound last s { s with broadcastTxSeq := b } :=
  ⟨⟨List.Perm.refl _, List.prefix_rfl⟩, ⟨h.limit, h.prev, h.room, h.window, h.fits⟩,
    rfl, rfl, hlast⟩

section
variable (hlimit : 0 < signer.inflightTxLimit) (hbound : bound < 2 ^ 64) (h : Tracks signer bound s)
  (hlast : s.currentRequest.isSome = true → s.checkTxSeq = last)
include hlimit hbound h hlast

theorem settle_turns {sending stored : Bool} {response : ZgChainMsgResponse R ε}
    (ha : Attempt signer s sending stored response) (reply : Reply ε) :
    Turns signer bound last s (s.settle sending stored response reply).value := by
  obtain ⟨hreq, hbytes⟩ := afterBroadcast_request response reply
  unfold settle
  generalize afterBroadcast response reply = result at hreq hbytes
  obtain ⟨response', r⟩ := result
  cases ha with
  | again hg =>
    cases r with
    | ok => exact replaced_turns hlimit h hlast hg { response' with err := none } hreq hbytes _
    | failed => exact dropped_turns hlimit h hlast hg hreq _
    | retry => exact replaced_turns hlimit h hlast hg response' hreq hbytes _
    | resetSequence => exact replaced_turns hlimit h hlast hg response' hreq hbytes _
  | first hseq hc hs =>
    cases r with
    | ok =>
      exact stored_turns hlimit h { response' with err := none } hseq hc hreq hbound
        (signed_congr hs hreq hbytes)
    | failed =>
      have hfree := h.free (by rw [hc]; rfl)
      have hlen := h.length_pos hlimit
      refine answered_turns h response' hc hreq (h.window.clear hlen _) (length_put _ _ _) ?_
      have hput := put_perm hlen s.broadcastTxSeq.toNat none
      rw [hseq, hfree] at hput
      simpa [hseq] using hput
    | retry => exact unchanged_turns h hlast _
    | resetSequence => exact unchanged_turns h hlast _

theorem broadcastOne_turns (reply : Reply ε) :
    Turns signer bound last s (s.broadcastOne signer last reply).value := by
  unfold broadcastOne
  generalize hs : (if s.broadcastTxSeq = last then s.currentRequest else none) = sending
  have hsending : ∀ r, sending = some r → s.broadcastTxSeq = s.checkTxSeq ∧
      s.currentRequest = some r := by
    intro r hr
    rw [hr] at hs
    split at hs
    · rename_i hb
      exact ⟨hb.trans (hlast (by rw [hs]; rfl)).symm, hs⟩
    · cases hs
  dsimp only
  cases hg : get s.inflight s.broadcastTxSeq.toNat with
  | some response =>
    -- the slot of the current request is free, so this is not its sequence
    cases sending with
    | none => exact settle_turns hlimit hbound h hlast (.again hg) reply
    | some request =>
      obtain ⟨hseq, hc⟩ := hsending request rfl
      rw [hseq, h.free (by rw [hc]; rfl)] at hg
      cases hg
  | none =>
    cases sending with
    | none => exact unchanged_turns h hlast _
    | some request =>
      obtain ⟨hseq, hc⟩ := hsending request rfl
      dsimp only
      split
      · -- a request that cannot be signed is answered at once
        rename_i err _
        exact answered_turns h ⟨request, [], none, some (.sign err)⟩ hc rfl h.window rfl
          (List.Perm.refl _)
      · rename_i txBytes hsign
        exact settle_turns hlimit hbound h hlast (.first hseq hc ⟨_, hsign⟩) reply

end

/-- The loop keeps every request, whatever the node answers. -/
theorem broadcastLoop_turns (hlimit : 0 < signer.inflightTxLimit) (hbound : bound < 2 ^ 64)
    (reply : UInt64 → Reply ε) {n : Nat} (h : Tracks signer bound s)
    (hlast : s.currentRequest.isSome = true → s.checkTxSeq = last) :
    Turns signer bound last s (s.broadcastLoop signer last reply n) := by
  induction n generalizing s with
  | zero => exact unchanged_turns h hlast s.broadcastTxSeq
  | succ n ih =>
    have hone := broadcastOne_turns hlimit hbound h hlast (reply s.broadcastTxSeq)
    unfold broadcastLoop
    cases hb : s.broadcastOne signer last (reply s.broadcastTxSeq) with
    | done s₁ =>
      rw [hb] at hone
      exact hone
    | yield s₁ =>
      rw [hb] at hone
      change Turns signer bound last s s₁ at hone
      have hrest := ih hone.tracks hone.current
      exact ⟨hone.toMoves.trans hrest.toMoves, hrest.tracks, hrest.account.trans hone.account,
        hrest.prevDeliver.trans hone.prevDeliver, hrest.current⟩

theorem broadcast_turns (hlimit : 0 < signer.inflightTxLimit) (hbound : bound < 2 ^ 64)
    (reply : UInt64 → Reply ε) (h : Tracks signer bound s) :
    Turns signer bound s.lastRequestTxSeq s (s.broadcast signer reply) := by
  refine broadcastLoop_turns hlimit hbound reply h fun hc => ?_
  obtain ⟨request, hr⟩ := Option.isSome_iff_exists.mp hc
  simp [lastRequestTxSeq, hr]

/-! ## Deliveries -/

theorem deliverOne_moves (hlen : 0 < s.inflight.length) (i : Nat) : Moves s (s.deliverOne i) where
  requests := by
    refine requests_perm hlen rfl rfl rfl ?_
    simp [deliverOne]
  responses := List.prefix_append _ _

/-- The slots below the new sequence are cleared. -/
theorem foldl_deliverOne (n : Nat) {lo : Nat} (hlen : 0 < s.inflight.length)
    (h : Window (SignedAt signer) lo s.checkTxSeq.toNat s.inflight) :
    let s' := (List.range' lo n).foldl deliverOne s
    Moves s s' ∧ Window (SignedAt signer) (lo + n) s.checkTxSeq.toNat s'.inflight ∧
      s' = { s with inflight := s'.inflight, responses := s'.responses } ∧
      s'.inflight.length = s.inflight.length := by
  induction n generalizing s lo with
  | zero => exact ⟨Moves.refl s, h, rfl, rfl⟩
  | succ n ih =>
    have hone : Window (SignedAt signer) (lo + 1) s.checkTxSeq.toNat (s.deliverOne lo).inflight :=
      h.shift hlen
    have hlen₁ : (s.deliverOne lo).inflight.length = s.inflight.length := length_put _ _ _
    obtain ⟨hmoves, hwindow, hrest, hlen'⟩ := ih (s := s.deliverOne lo) (hlen₁ ▸ hlen) hone
    refine ⟨(deliverOne_moves hlen lo).trans hmoves, ?_, hrest, hlen'.trans hlen₁⟩
    rw [show lo + (n + 1) = lo + 1 + n by omega]
    exact hwindow

/-- A tracked state that has seen no sequence beyond the delivered ones. -/
structure Settled (signer : ZgChainSigner R ε) (bound : Nat) (s : State R ε) : Prop
    extends Tracks signer bound s where
  account : s.account.sequence.toNat ≤ s.prevDeliverTxSeq.toNat

theorem catchUp_toNat (s : State R ε) :
    s.catchUp.checkTxSeq.toNat = max s.checkTxSeq.toNat s.account.sequence.toNat ∧
      s.catchUp = { s with checkTxSeq := s.catchUp.checkTxSeq } := by
  unfold catchUp
  by_cases h : s.checkTxSeq < s.account.sequence
  · rw [if_pos h]
    exact ⟨(max_eq_right (UInt64.lt_iff_toNat_lt.mp h).le).symm, rfl⟩
  · rw [if_neg h]
    exact ⟨(max_eq_left (UInt64.le_iff_toNat_le.mp (UInt64.not_lt.mp h))).symm, rfl⟩

/-- The slots of delivered sequences are free. -/
structure Delivers (signer : ZgChainSigner R ε) (s s' : State R ε) : Prop extends Moves s s' where
  limit : s'.inflight.length = s.inflight.length
  prev : s'.prevDeliverTxSeq.toNat = max s.prevDeliverTxSeq.toNat s.account.sequence.toNat
  window : Window (SignedAt signer) s'.prevDeliverTxSeq.toNat s.checkTxSeq.toNat s'.inflight
  check : s'.checkTxSeq = s.checkTxSeq
  account : s'.account = s.account
  current : s'.currentRequest = s.currentRequest

theorem deliver_delivers (hlimit : 0 < signer.inflightTxLimit) (h : Tracks signer bound s) :
    Delivers signer s s.deliver := by
  unfold deliver
  by_cases hlt : s.prevDeliverTxSeq < s.account.sequence
  · have hle := (UInt64.lt_iff_toNat_lt.mp hlt).le
    obtain ⟨hmoves, hwindow, hrest, hlen⟩ :=
      foldl_deliverOne (s.account.sequence.toNat - s.prevDeliverTxSeq.toNat)
        (h.length_pos hlimit) h.window
    rw [Nat.add_sub_cancel' hle] at hwindow
    rw [if_pos hlt]
    dsimp only
    rw [hrest] at hmoves ⊢
    exact ⟨⟨hmoves.requests, hmoves.responses⟩, hlen, (max_eq_right hle).symm, hwindow,
      rfl, rfl, rfl⟩
  · have hle := UInt64.le_iff_toNat_le.mp (UInt64.not_lt.mp hlt)
    rw [if_neg hlt]
    exact ⟨Moves.refl s, rfl, (max_eq_left hle).symm, h.window, rfl, rfl, rfl⟩

/-- After the deliveries the sequences used by others are skipped. -/
theorem deliver_tracks (hlimit : 0 < signer.inflightTxLimit) (h : Tracks signer bound s)
    (haccount : s.account.sequence.toNat + s.currentRequest.toList.length ≤ bound) :
    Settled signer bound s.deliver.catchUp ∧ Moves s s.deliver.catchUp ∧
      (s.checkTxSeq ≤ s.account.sequence → s.deliver.catchUp.inflight.reduceOption = []) := by
  have hd := deliver_delivers hlimit h
  obtain ⟨hmax, hstate⟩ := catchUp_toNat s.deliver
  rw [hd.check, hd.account] at hmax
  have hprev := hd.prev
  have hprev₀ := h.prev
  have hlt : 0 < signer.inflightTxLimit.toNat := UInt64.lt_iff_toNat_lt.mp hlimit
  have hone : s.currentRequest.toList.length ≤ 1 := by cases s.currentRequest <;> simp
  rw [hstate]
  refine ⟨⟨⟨hd.limit.trans h.limit, ?_, ?_, ?_, ?_⟩, ?_⟩, ⟨hd.requests, hd.responses⟩,
    fun hle => ?_⟩
  · change s.deliver.prevDeliverTxSeq.toNat ≤ s.deliver.catchUp.checkTxSeq.toNat
    omega
  · have hroom := h.room
    change s.deliver.catchUp.checkTxSeq.toNat - s.deliver.prevDeliverTxSeq.toNat +
      s.deliver.currentRequest.toList.length ≤ _
    rw [hd.current]
    omega
  · refine hd.window.mono (le_refl _) ?_ fun _ _ hs => hs
    change _ ≤ s.deliver.catchUp.checkTxSeq.toNat
    omega
  · have hfits := h.fits
    change s.deliver.catchUp.checkTxSeq.toNat + s.deliver.currentRequest.toList.length ≤ bound
    rw [hd.current]
    omega
  · change s.deliver.account.sequence.toNat ≤ s.deliver.prevDeliverTxSeq.toNat
    rw [hd.account]
    omega
  · refine hd.window.eq_nil ?_
    have hle := UInt64.le_iff_toNat_le.mp hle
    omega

/-! ## Runs -/

theorem Tracks.mono {bound' : Nat} (h : Tracks signer bound s) (hle : bound ≤ bound') :
    Tracks signer bound' s :=
  ⟨h.limit, h.prev, h.room, h.window, h.fits.trans hle⟩

/-- One more sequence may be used up after an event. -/
theorem Settled.receive (h : Settled signer bound s) {e : Event R ε}
    (hseen : ∀ a, e.input = .account a → a.sequence.toNat ≤ bound)
    (hr : s.receive e.input = some s') :
    Tracks signer (bound + 1) s' ∧
    s'.account.sequence.toNat + s'.currentRequest.toList.length ≤ bound + 1 ∧
      s'.requests = s.requests ++ taken s e := by
  obtain ⟨input, reply⟩ := e
  have hfits := h.fits
  have hprev := h.prev
  have haccount := h.account
  cases input with
  | account account =>
    cases hr
    have hone : s.currentRequest.toList.length ≤ 1 := by cases s.currentRequest <;> simp
    have hle := hseen account rfl
    refine ⟨⟨h.limit, h.prev, h.room, h.window, hfits.trans (Nat.le_succ _)⟩, ?_,
      (List.append_nil _).symm⟩
    change account.sequence.toNat + s.currentRequest.toList.length ≤ _
    omega
  | request request =>
    rw [State.receive] at hr
    by_cases hbusy : s.busy = true
    · rw [if_pos hbusy] at hr
      cases hr
    · rw [if_neg hbusy] at hr
      cases hr
      have htaken : taken s ⟨.request request, reply⟩ = [request] := if_neg hbusy
      -- the account is not ahead, so the difference does not wrap around
      have hsub : (s.checkTxSeq - s.account.sequence).toNat =
          s.checkTxSeq.toNat - s.account.sequence.toNat :=
        UInt64.toNat_sub_of_le _ _ (UInt64.le_iff_toNat_le.mpr (haccount.trans hprev))
      rw [busy, Bool.not_eq_true, Bool.or_eq_false_iff, decide_eq_false_iff_not, h.limit,
        Option.isSome_eq_false_iff, Option.isNone_iff_eq_none, hsub] at hbusy
      rw [hbusy.1] at hfits
      change s.checkTxSeq.toNat + 0 ≤ _ at hfits
      refine ⟨⟨h.limit, h.prev, ?_, h.window, ?_⟩, ?_, ?_⟩
      · change s.checkTxSeq.toNat - s.prevDeliverTxSeq.toNat + 1 ≤ _
        omega
      · change s.checkTxSeq.toNat + 1 ≤ _
        omega
      · change s.account.sequence.toNat + 1 ≤ _
        omega
      · rw [htaken]
        simp [State.requests, waiting, hbusy.1]

theorem taken_of_receive_none {e : Event R ε} (hr : s.receive e.input = none) : taken s e = [] := by
  obtain ⟨input, reply⟩ := e
  cases input with
  | account account => cases hr
  | request request =>
    rw [State.receive] at hr
    split at hr
    · rename_i hbusy
      exact if_pos hbusy
    · cases hr

theorem resetBroadcast_eq (s : State R ε) :
    ∃ b, s.resetBroadcast = { s with broadcastTxSeq := b } := by
  unfold resetBroadcast
  split
  · exact ⟨_, rfl⟩
  · exact ⟨_, rfl⟩

theorem Tracks.reset (h : Tracks signer bound s) :
    Turns signer bound s.lastRequestTxSeq s s.resetBroadcast := by
  obtain ⟨b, hb⟩ := resetBroadcast_eq s
  rw [hb]
  refine unchanged_turns h (fun hc => ?_) b
  obtain ⟨request, hr⟩ := Option.isSome_iff_exists.mp hc
  simp [lastRequestTxSeq, hr]

section
variable (hlimit : 0 < signer.inflightTxLimit) (hbound : bound < 2 ^ 64) (h : Tracks signer bound s)
  (haccount : s.account.sequence.toNat + s.currentRequest.toList.length ≤ bound)
    (reply : UInt64 → Reply ε)
include hlimit hbound h haccount

theorem pass_settled : Settled signer bound (s.pass signer reply) ∧
    Moves s (s.pass signer reply) := by
  obtain ⟨hsettled, hmoves, _⟩ := deliver_tracks hlimit h haccount
  have hreset := hsettled.toTracks.reset
  have hturns := broadcast_turns hlimit hbound reply hreset.tracks
  refine ⟨⟨hturns.tracks, ?_⟩, (hmoves.trans hreset.toMoves).trans hturns.toMoves⟩
  rw [pass, hturns.account, hturns.prevDeliver, hreset.account, hreset.prevDeliver]
  exact hsettled.account

/-- A sequence beyond all that were signed answers every request in the slots. -/
theorem pass_drained (hle : s.checkTxSeq ≤ s.account.sequence) :
    (s.pass signer reply).waiting.length ≤ 1 := by
  obtain ⟨hsettled, _, hempty⟩ := deliver_tracks hlimit h haccount
  have hreset := hsettled.toTracks.reset
  have hturns := broadcast_turns hlimit hbound reply hreset.tracks
  refine (hreset.toMoves.trans hturns.toMoves).waiting_le.trans ?_
  rw [waiting, hempty hle]
  cases s.deliver.catchUp.currentRequest <;> simp

end

theorem Settled.step (hlimit : 0 < signer.inflightTxLimit) (hbound : bound + 1 < 2 ^ 64)
    (h : Settled signer bound s)
    (e : Event R ε) (hseen : ∀ a, e.input = .account a → a.sequence.toNat ≤ bound) :
    Settled signer (bound + 1) (s.step signer e) ∧
    (s.step signer e).requests.Perm (s.requests ++ taken s e) := by
  unfold State.step
  cases hr : s.receive e.input with
  | none =>
    refine ⟨⟨h.toTracks.mono (Nat.le_succ _), h.account⟩, ?_⟩
    rw [taken_of_receive_none hr, List.append_nil]
  | some s₁ =>
    obtain ⟨htracks, haccount, hrequests⟩ := h.receive hseen hr
    obtain ⟨hsettled, hmoves⟩ := pass_settled hlimit hbound htracks haccount e.reply
    refine ⟨hsettled, ?_⟩
    rw [← hrequests]
    exact hmoves.requests

theorem Settled.run (hlimit : 0 < signer.inflightTxLimit) (h : Settled signer bound s)
    (events : List (Event R ε))
    (hseen : ∀ e ∈ events, ∀ a, e.input = .account a → a.sequence.toNat ≤ bound)
    (hbound : bound + events.length < 2 ^ 64) :
    Settled signer (bound + events.length) (runSteps (State.step signer) s events) ∧
      (runSteps (State.step signer) s events).requests.Perm
        (s.requests ++ takenOver signer s events) := by
  induction events generalizing s bound with
  | nil => exact ⟨h, by rw [takenOver, List.append_nil]; exact List.Perm.refl _⟩
  | cons e events ih =>
    rw [List.length_cons, Nat.add_comm events.length, ← Nat.add_assoc] at hbound ⊢
    obtain ⟨hstep, hone⟩ := h.step hlimit (by omega) e (hseen e List.mem_cons_self)
    obtain ⟨hrun, hrest⟩ := ih hstep
      (fun e he a ha => (hseen e (List.mem_cons_of_mem _ he) a ha).trans (Nat.le_succ _)) hbound
    refine ⟨hrun, hrest.trans ?_⟩
    rw [takenOver, ← List.append_assoc]
    exact hone.append_right _

theorem start_settled (signer : ZgChainSigner R ε) (account : Account)
    (hle : account.sequence.toNat ≤ bound) :
    Settled signer bound (start signer.inflightTxLimit account) := by
  refine ⟨⟨List.length_replicate, le_refl _, ?_, Window.empty _ _ _ _, hle⟩, le_refl _⟩
  change account.sequence.toNat - account.sequence.toNat + 0 ≤ _
  omega

/-- Sequences that leave room for every event have a bound that the whole run keeps below
the last one. -/
theorem run_settled (hlimit : 0 < signer.inflightTxLimit) {account : Account}
    {events : List (Event R ε)} (hfit : SequencesFit account events) :
    Settled signer (2 ^ 64 - 1) (signer.run account events) ∧
      (signer.run account events).requests.Perm
        ((start signer.inflightTxLimit account : State R ε).requests ++
          takenOver signer (start signer.inflightTxLimit account) events) := by
  have haccount := hfit account (.inl rfl)
  have hseen : ∀ e ∈ events, ∀ a, e.input = .account a →
      a.sequence.toNat ≤ 2 ^ 64 - 1 - events.length := by
    intro e he a ha
    have := hfit a (.inr ⟨e, he, ha⟩)
    omega
  have hrun := (start_settled signer account (by omega)).run hlimit events hseen (by omega)
  rwa [Nat.sub_add_cancel (by omega)] at hrun

/-- Free slots leave room: at most the limit is waiting. -/
theorem Tracks.waiting_le (h : Tracks signer bound s) :
    s.waiting.length ≤ signer.inflightTxLimit.toNat := by
  have hroom := h.room
  rw [waiting, List.length_append, List.length_map, ← h.limit]
  cases hc : s.currentRequest with
  | none => exact List.reduceOption_length_le _
  | some request =>
    rw [hc] at hroom
    have hlen : 0 < s.inflight.length := by
      rw [h.limit]
      exact (Nat.succ_pos _).trans_le hroom
    exact length_lt_of_free hlen (h.free (by rw [hc]; rfl))

theorem start_requests (limit : UInt64) (account : Account) :
    (start limit account : State R ε).requests = [] := by
  have hempty := (Window.empty (fun _ (_ : ZgChainMsgResponse R ε) => True) 0 0 limit.toNat).eq_nil
    (le_refl 0)
  rw [requests, waiting, start, hempty]
  rfl

end State

/-- In every run without a wrap-around of sequences, the requests the signer took are those
it has answered, those in the slots and the current one, each as often as it was taken; and
no more than the limit wait for an answer. -/
theorem requests_answered_once (signer : ZgChainSigner R ε) (hlimit : 0 < signer.inflightTxLimit)
    (account : Account) (events : List (Event R ε)) (hfit : SequencesFit account events) :
    let s := signer.run account events
    (s.responses.map ZgChainMsgResponse.request ++ s.waiting).Perm
        (takenOver signer (State.start signer.inflightTxLimit account) events) ∧
      s.waiting.length ≤ signer.inflightTxLimit.toNat := by
  obtain ⟨hsettled, hperm⟩ := State.run_settled hlimit hfit
  rw [State.start_requests, List.nil_append] at hperm
  exact ⟨hperm, hsettled.waiting_le⟩

/-- Requests are numbers, and the transaction of one is its number with the sequence. -/
def sampleSigner : ZgChainSigner Nat String where
  chainID := "zgtendermint_16600-1"
  sign request data := .ok [Fin.ofNat 256 request, Fin.ofNat 256 data.sequence.toNat]
  inflightTxLimit := 2

/-- Two requests, of which the second finds a node that was restarted; then the first is
delivered. -/
def sampleEvents : List (Event Nat String) :=
  [⟨.request 1, fun _ => .answer 0⟩, ⟨.request 2, fun _ => .answer 32⟩,
    ⟨.account ⟨5, 9⟩, fun _ => .answer 0⟩,
    ⟨.account ⟨6, 9⟩, fun _ => .answer 19⟩]

theorem sampleEvents_fit : SequencesFit ⟨5, 9⟩ sampleEvents := by
  intro a ha
  have hseen : a = ⟨5, 9⟩ ∨ a = ⟨6, 9⟩ := by
    simpa [sampleEvents, eq_comm] using ha
  obtain h | h := hseen
  · rw [h]
    decide
  · rw [h]
    decide

theorem requests_answered_once_sample :
    (sampleSigner.run ⟨5, 9⟩ sampleEvents).responses.map ZgChainMsgResponse.request = [1] ∧
    (sampleSigner.run ⟨5, 9⟩ sampleEvents).waiting = [2] ∧
    ((sampleSigner.run ⟨5, 9⟩ sampleEvents).responses.map ZgChainMsgResponse.request ++
      (sampleSigner.run ⟨5, 9⟩ sampleEvents).waiting).Perm
        (takenOver sampleSigner (State.start sampleSigner.inflightTxLimit ⟨5, 9⟩) sampleEvents) :=
  ⟨by decide, by decide,
    (requests_answered_once sampleSigner (by decide) ⟨5, 9⟩ sampleEvents sampleEvents_fit).1⟩

/-- Without a wrap-around of sequences, every transaction that waits was signed with a
sequence the account has not passed and below the next one to use, another one for each
slot. Once the account is seen to have passed all of them, at most one request waits. -/
theorem waiting_are_signed_and_delivered (signer : ZgChainSigner R ε)
    (hlimit : 0 < signer.inflightTxLimit)
    (account : Account) (events : List (Event R ε)) (hfit : SequencesFit account events) :
    let s := signer.run account events
    (∀ n response, get s.inflight n = some response → ∃ q : UInt64, s.account.sequence ≤ q ∧
      q < s.checkTxSeq ∧
      q.toNat % signer.inflightTxLimit.toNat = n % signer.inflightTxLimit.toNat ∧
      Signed signer q response) ∧
    ∀ account' reply, s.checkTxSeq ≤ account'.sequence → account'.sequence.toNat + 1 < 2 ^ 64 →
      (signer.run account (events ++ [⟨.account account', reply⟩])).waiting.length ≤ 1 := by
  obtain ⟨hsettled, _⟩ := State.run_settled hlimit hfit
  refine ⟨fun n response hg => ?_, fun account' reply hle hlt => ?_⟩
  · obtain ⟨_, hlo, hhi, hmod, q, rfl, hs⟩ := hsettled.window n response hg
    rw [hsettled.limit] at hmod
    exact ⟨q, UInt64.le_iff_toNat_le.mpr (hsettled.account.trans hlo),
      UInt64.lt_iff_toNat_lt.mpr hhi, hmod, hs⟩
  · rw [ZgChainSigner.run, runSteps_append]
    have hone : (signer.run account events).currentRequest.toList.length ≤ 1 := by
      cases (signer.run account events).currentRequest <;> simp
    refine State.pass_drained (s := { signer.run account events with account := account' })
      hlimit (by omega)
      ⟨hsettled.limit, hsettled.prev, hsettled.room, hsettled.window, hsettled.fits⟩ ?_ reply hle
    change account'.sequence.toNat + (signer.run account events).currentRequest.toList.length ≤ _
    omega

theorem waiting_are_signed_and_delivered_sample :
    get (sampleSigner.run ⟨5, 9⟩ sampleEvents).inflight 6 = some ⟨2, [2, 6], some 19, none⟩ ∧
    (sampleSigner.run ⟨5, 9⟩
      (sampleEvents ++ [⟨.account ⟨7, 9⟩, fun _ => .answer 0⟩])).waiting.length ≤ 1 :=
  ⟨by decide, (waiting_are_signed_and_delivered sampleSigner (by decide) ⟨5, 9⟩ sampleEvents
    sampleEvents_fit).2
    _ _ (by decide) (by decide)⟩

end ZgChain.Client
