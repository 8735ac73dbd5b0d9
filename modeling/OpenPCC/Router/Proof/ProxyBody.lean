import OpenPCC.Anonpay.Contract
import OpenPCC.Router.Proof.Refund

/-!
# Served responses are paid for

Between its begin and its end a transaction is open and holds the lock (`Held`). The callback at the
end of the body consumes the nonce and settles the transaction (`Settled`), unless it cannot decode
the refund trailer: then it leaves everything as it is. On a settled transaction it fails. So a
response is paid for exactly if the body is read as often to its end as the trailer needs
(`served_paid_iff`).
-/

namespace Router

open Go Anonpay Prog World

variable {L : Type}

/-! ## Transactions that hold their lock -/

theorem ctxAt_of_not_cancelled {w : World L} (h : w.cancel = none) (k : Nat) :
    w.ctxAt k = none := by
  rw [ctxAt, h]

/-- A lock that is held can be consumed. -/
def Reliable {nl : NonceLocker L} (C : Contract nl) : Prop :=
  ∀ n t l, C.status l n.nonce = .locked t → (nl.consume none n t l).1 = none

/-- The transaction is open and its nonce is locked. -/
structure Held {nl : NonceLocker L} (C : Contract nl) (tx : Transaction) (w : World L) : Prop where
  tx_open : tx.done = none
  ctx : w.cancel = none
  locked : C.status w.locker tx.credit.nonce.nonce = .locked tx.lockedNonce.ticket

/-- The transaction is finished and the trailer is gone. -/
structure Settled (res : Response) : Prop where
  finished : res.tx.done = some ⟨.var .canceled, .var .finished⟩
  refundAmount : res.refundAmount = []

/-- From `w` to `w'` the nonce of `tx` was consumed, and nothing was released. -/
structure Consumed {nl : NonceLocker L} (C : Contract nl) (tx : Transaction) (w w' : World L) :
    Prop where
  status : C.status w'.locker tx.credit.nonce.nonce = .consumed
  calls : ∃ cs, w'.calls = w.calls ++ cs ∧ ∀ n t, Call.release n t ∉ cs

section
variable {nl : NonceLocker L} {C : Contract nl}

theorem held_of_begin {issuer : Issuer} {cred : BlindedCredit} {tx : Transaction} {w w' : World L}
    (hctx : w.cancel = none) (h : exec nl (beginTransaction issuer cred) w = (.ok tx, w')) :
    Held C tx w' := by
  rw [exec_beginTransaction] at h
  split at h
  · cases h
  · split at h
    · cases h
    · next hlock =>
      cases h
      exact ⟨rfl, hctx, (C.lock_ok hlock).2⟩

theorem Held.commit {tx : Transaction} {w : World L} (h : Held C tx w) (hreliable : Reliable C) :
    ∃ w', exec nl tx.commit w =
        ((none, { tx with done := some ⟨.var .canceled, .var .finished⟩ }), w') ∧
      Consumed C tx w w' := by
  have hctx : w.ctx = none := ctxAt_of_not_cancelled h.ctx 0
  have hconsume := hreliable tx.credit.nonce _ _ h.locked
  rw [exec_commit nl tx w h.tx_open, hctx]
  simp only [ctxAt_of_not_cancelled h.ctx, Option.getD_none]
  split
  · next l hl =>
    exact ⟨_, rfl, C.consume_ok hl, _, rfl, by simp⟩
  · next e l hl =>
    rw [hl] at hconsume
    cases hconsume

theorem Held.rollback {tx : Transaction} {w : World L} (h : Held C tx w) :
    C.status (exec nl tx.rollback w).2.locker tx.credit.nonce.nonce = .free := by
  have hctx : w.ctx = none := ctxAt_of_not_cancelled h.ctx 0
  rw [exec_rollback nl tx w h.tx_open, hctx]
  exact C.release_locked h.locked

theorem rollback_of_finished {tx : Transaction} {w : World L}
    (h : tx.done = some ⟨.var .canceled, .var .finished⟩) :
    (exec nl tx.rollback w).2 = w := by
  obtain ⟨issuer, credit, lockedNonce, done⟩ := tx
  cases h
  rfl

end

/-! ## The callback -/

section
variable {nl : NonceLocker L} {codec : TextCodec}
  {marshalText : UnblindedCredit → Except Err Bytes} {d : Draw}

/-- The trailer is absent or has a value. -/
def Decodes (codec : TextCodec) (trailer : Bytes) : Prop :=
  trailer = [] ∨ ∃ value, unmarshalText codec trailer = .ok value

variable (codec marshalText d) in
/-- At the end of the body the nonce is consumed, if the trailer can be decoded. The refund may
still fail. -/
theorem Held.eofCallback {C : Contract nl} {res : Response} {w : World L} (h : Held C res.tx w)
    (hreliable : Reliable C) (hdecodes : Decodes codec res.refundAmount) :
    ∃ err res' w', exec nl (res.eofCallback codec marshalText d) w = ((err, res'), w') ∧
      (res.refundAmount = [] → err = none) ∧ Settled res' ∧ Consumed C res.tx w w' := by
  obtain ⟨w', hcommit, hconsumed⟩ := h.commit hreliable
  unfold Response.eofCallback Router.eofCallback
  by_cases hval : res.refundAmount = []
  · simp only [hval, if_true, exec_bind, hcommit, pure_eq, exec_ret]
    exact ⟨_, _, _, rfl, fun _ => rfl, ⟨rfl, rfl⟩, hconsumed⟩
  · obtain ⟨value, hvalue⟩ := hdecodes.resolve_left hval
    simp only [hval, if_false, hvalue, Transaction.commitWithUnspend, exec_bind, hcommit,
      pure_eq, exec_ret]
    cases Transaction.refund _ d value none with
    | error e => exact ⟨_, _, _, rfl, fun h => h.elim, ⟨rfl, rfl⟩, hconsumed⟩
    | ok refund =>
      dsimp only
      cases marshalText refund <;> exact ⟨_, _, _, rfl, fun h => h.elim, ⟨rfl, rfl⟩, hconsumed⟩

variable (nl marshalText d) in
theorem eofCallback_of_not_decodes {res : Response} (w : World L)
    (h : ¬ Decodes codec res.refundAmount) :
    ∃ e, exec nl (res.eofCallback codec marshalText d) w =
      ((some e, { res with refundAmount := [] }), w) := by
  obtain ⟨hval, hvalue⟩ := not_or.1 h
  unfold Response.eofCallback Router.eofCallback
  simp only [hval, if_false]
  cases hv : unmarshalText codec res.refundAmount with
  | error e => exact ⟨_, rfl⟩
  | ok value => exact absurd ⟨value, hv⟩ hvalue

theorem Settled.eofCallback {res : Response} (h : Settled res) (w : World L) :
    exec nl (res.eofCallback codec marshalText d) w =
      ((some (.errorf "failed to commit transaction: %w" [] (.var .canceled)), res), w) := by
  obtain ⟨⟨issuer, credit, lockedNonce, done⟩, refundAmount, refund⟩ := res
  obtain ⟨hdone, hval⟩ := h
  cases hdone
  cases hval
  rfl

/-! ## Reads -/

theorem exec_read_eof (res : Response) (n : Nat) (w : World L) :
    exec nl (res.read codec marshalText d ⟨n, some .eof⟩) w =
      let a := exec nl (res.eofCallback codec marshalText d) w
      ((⟨n, some (a.1.1.elim .eof .other)⟩, a.1.2), a.2) := by
  simp only [Response.read, exec_bind]
  cases (exec nl (res.eofCallback codec marshalText d) w).1 with
  | mk err res' => cases err <;> rfl

theorem exec_readAll_cons (res : Response) (orig : ReadResult) (origs : List ReadResult)
    (w : World L) :
    exec nl (res.readAll codec marshalText d (orig :: origs)) w =
      let a := exec nl (res.read codec marshalText d orig) w
      let b := exec nl (a.1.2.readAll codec marshalText d origs) a.2
      ((a.1.1 :: b.1.1, b.1.2), b.2) := by
  simp only [Response.readAll, exec_bind]
  rfl

theorem exec_readAll_before (res : Response) (before : List (Nat × Option Err))
    (origs : List ReadResult) (w : World L) :
    exec nl (res.readAll codec marshalText d
        (before.map (fun r => ⟨r.1, r.2.map .other⟩) ++ origs)) w =
      let a := exec nl (res.readAll codec marshalText d origs) w
      ((before.map (fun r => ⟨r.1, r.2.map .other⟩) ++ a.1.1, a.1.2), a.2) := by
  induction before with
  | nil => rfl
  | cons r before ih =>
    have hread : exec nl (res.read codec marshalText d ⟨r.1, r.2.map .other⟩) w =
        ((⟨r.1, r.2.map .other⟩, res), w) := by
      obtain ⟨n, err⟩ := r
      cases err <;> rfl
    rw [List.map_cons, List.cons_append, exec_readAll_cons]
    simp only [hread, ih, List.cons_append]

/-- The error of a read after the transaction is settled. -/
def commitCanceled : Err := .errorf "failed to commit transaction: %w" [] (.var .canceled)

theorem Settled.readAll {res : Response} (h : Settled res) (ns : List Nat) (w : World L) :
    exec nl (res.readAll codec marshalText d (ns.map fun n => ⟨n, some .eof⟩)) w =
      ((ns.map fun n => ⟨n, some (.other commitCanceled)⟩, res), w) := by
  induction ns with
  | nil => rfl
  | cons n ns ih =>
    rw [List.map_cons, exec_readAll_cons]
    simp only [exec_read_eof, h.eofCallback, ih]
    rfl

/-! ## The handler -/

theorem exec_serve (res : Response) (c : Copying) (w : World L) :
    exec nl (res.serve codec marshalText d c) w =
      let a := exec nl (res.readAll codec marshalText d c.origs) w
      (a.1.1, if c.aborts a.1.1 then a.2 else (exec nl a.1.2.tx.rollback a.2).2) := by
  simp only [Response.serve, exec_bind]
  cases (exec nl (res.readAll codec marshalText d c.origs) w).1 with
  | mk results res' =>
    dsimp only
    split <;> simp

/-- What a served response is to leave: the results of the reads and the world after it. -/
structure Paid (C : Contract nl) (tx : Transaction) (c : Copying) (w : World L)
    (out : List ReadResult × World L) : Prop where
  consumed : c.atEOF ≠ [] → Consumed C tx w out.2
  released : c.atEOF = [] → C.status out.2.locker tx.credit.nonce.nonce = .free
  eof : ∀ r ∈ out.1.drop (c.before.length + 1), r.err = some .eof

/-- Without an end of the body the proxy does not panic; a body is read to its end once, or twice
with a trailer that cannot be decoded, which the first read has deleted. -/
def Copying.Settles (codec : TextCodec) (trailer : Bytes) (c : Copying) : Prop :=
  match c.atEOF with
  | [] => ¬(c.server = true ∧ (c.writeFails = true ∨ ∃ r ∈ c.before, r.2 ≠ none))
  | [_] => Decodes codec trailer
  | [_, _] => ¬ Decodes codec trailer
  | _ => False

theorem Held.paid_of_no_eof {C : Contract nl} {res : Response} {w : World L}
    (h : Held C res.tx w) {c : Copying} (hc : c.atEOF = []) :
    Paid C res.tx c w (exec nl (res.serve codec marshalText d c) w) ↔
      ¬(c.server = true ∧ (c.writeFails = true ∨ ∃ r ∈ c.before, r.2 ≠ none)) := by
  have hreads : exec nl (res.readAll codec marshalText d c.origs) w =
      ((c.before.map (fun r => ⟨r.1, r.2.map .other⟩), res), w) := by
    rw [Copying.origs, exec_readAll_before, hc]
    simp [Response.readAll]
  have haborts : c.aborts (c.before.map fun r => ⟨r.1, r.2.map .other⟩) = true ↔
      c.server = true ∧ (c.writeFails = true ∨ ∃ r ∈ c.before, r.2 ≠ none) := by
    simp only [Copying.aborts, Bool.and_eq_true, Bool.or_eq_true, List.any_map, List.any_eq_true]
    refine and_congr_right fun _ => or_congr_right ?_
    refine exists_congr fun r => and_congr_right fun _ => ?_
    cases hr : r.2 <;> simp [hr]
  rw [exec_serve, hreads, ← haborts]
  dsimp only
  constructor
  · intro hpaid hab
    have hfree := hpaid.released hc
    rw [if_pos hab, h.locked] at hfree
    cases hfree
  · intro hab
    rw [if_neg hab]
    refine ⟨fun hne => absurd hc hne, fun _ => h.rollback, ?_⟩
    rw [List.drop_eq_nil_of_le (by simp)]
    exact fun r hr => absurd hr List.not_mem_nil

theorem paid_of_settled {C : Contract nl} {res res' : Response} {w w' : World L} {c : Copying}
    {rs : List ReadResult} {ns : List Nat} (hne : c.atEOF ≠ [])
    (hreads : exec nl (res.readAll codec marshalText d c.origs) w =
      ((c.before.map (fun r => ⟨r.1, r.2.map .other⟩) ++
        (rs ++ ns.map fun n => ⟨n, some (.other commitCanceled)⟩), res'), w'))
    (hrs : rs ≠ []) (heof : ∀ r ∈ rs.tail, r.err = some .eof)
    (hsettled : Settled res') (hconsumed : Consumed C res.tx w w') :
    Paid C res.tx c w (exec nl (res.serve codec marshalText d c) w) ↔ ns = [] := by
  obtain ⟨r, rs, rfl⟩ := List.exists_cons_of_ne_nil hrs
  have hend : (exec nl (res.serve codec marshalText d c) w).2 = w' := by
    rw [exec_serve, hreads]
    dsimp only
    split
    · rfl
    · exact rollback_of_finished hsettled.finished
  have hdrop : ((exec nl (res.serve codec marshalText d c) w).1).drop (c.before.length + 1) =
      rs ++ ns.map fun n => ⟨n, some (.other commitCanceled)⟩ := by
    rw [exec_serve, hreads]
    dsimp only
    rw [List.drop_append, List.drop_eq_nil_of_le (by simp)]
    simp
  constructor
  · intro hpaid
    have hall := hpaid.eof
    rw [hdrop] at hall
    cases ns with
    | nil => rfl
    | cons n ns =>
      have herr := hall ⟨n, some (.other commitCanceled)⟩ (by simp)
      cases herr
  · rintro rfl
    refine ⟨fun _ => hend ▸ hconsumed, fun hnil => absurd hnil hne, ?_⟩
    rw [hdrop]
    simpa using heof

/-- With a trailer that can be decoded the first read at the end settles the transaction. -/
theorem Held.paid_of_decodes {C : Contract nl} (hreliable : Reliable C) {res : Response}
    {w : World L} (h : Held C res.tx w) {c : Copying} {n : Nat} {ns : List Nat}
    (hc : c.atEOF = n :: ns) (hdecodes : Decodes codec res.refundAmount) :
    Paid C res.tx c w (exec nl (res.serve codec marshalText d c) w) ↔ ns = [] := by
  obtain ⟨err, res', w', hcall, -, hsettled, hconsumed⟩ :=
    h.eofCallback codec marshalText d hreliable hdecodes
  have hreads : exec nl (res.readAll codec marshalText d c.origs) w =
      ((c.before.map (fun r => ⟨r.1, r.2.map .other⟩) ++
        ([⟨n, some (err.elim .eof .other)⟩] ++
          ns.map fun n => ⟨n, some (.other commitCanceled)⟩), res'), w') := by
    rw [Copying.origs, exec_readAll_before, hc, List.map_cons, exec_readAll_cons]
    simp only [exec_read_eof, hcall, hsettled.readAll]
    rfl
  exact paid_of_settled (by simp [hc]) hreads (by simp) (by simp) hsettled hconsumed

theorem Held.not_paid_of_not_decodes {C : Contract nl} {res : Response} {w : World L}
    (h : Held C res.tx w) {c : Copying} {n : Nat} (hc : c.atEOF = [n])
    (hdecodes : ¬ Decodes codec res.refundAmount) :
    ¬ Paid C res.tx c w (exec nl (res.serve codec marshalText d c) w) := by
  intro hpaid
  obtain ⟨e, hcall⟩ := eofCallback_of_not_decodes nl marshalText d w hdecodes
  have hheld : Held C { res with refundAmount := [] }.tx w := h
  have hreads : exec nl (res.readAll codec marshalText d c.origs) w =
      ((c.before.map (fun r => ⟨r.1, r.2.map .other⟩) ++ [⟨n, some (.other e)⟩],
        { res with refundAmount := [] }), w) := by
    rw [Copying.origs, exec_readAll_before, hc, List.map_cons, exec_readAll_cons]
    simp only [exec_read_eof, hcall]
    rfl
  have hstatus := (hpaid.consumed (by simp [hc])).status
  rw [exec_serve, hreads] at hstatus
  dsimp only at hstatus
  split at hstatus
  · rw [h.locked] at hstatus
    cases hstatus
  · rw [hheld.rollback] at hstatus
    cases hstatus

/-- The first read at the end deletes such a trailer, and the second one settles the
transaction. -/
theorem Held.paid_of_not_decodes {C : Contract nl} (hreliable : Reliable C) {res : Response}
    {w : World L} (h : Held C res.tx w) {c : Copying} {n n' : Nat} {ns : List Nat}
    (hc : c.atEOF = n :: n' :: ns) (hdecodes : ¬ Decodes codec res.refundAmount) :
    Paid C res.tx c w (exec nl (res.serve codec marshalText d c) w) ↔ ns = [] := by
  obtain ⟨e, hcall⟩ := eofCallback_of_not_decodes nl marshalText d w hdecodes
  have hheld : Held C { res with refundAmount := [] }.tx w := h
  obtain ⟨err, res', w', hcall', hnone, hsettled, hconsumed⟩ :=
    hheld.eofCallback codec marshalText d hreliable (.inl rfl)
  obtain rfl := hnone rfl
  have hreads : exec nl (res.readAll codec marshalText d c.origs) w =
      ((c.before.map (fun r => ⟨r.1, r.2.map .other⟩) ++
        ([⟨n, some (.other e)⟩, ⟨n', some .eof⟩] ++
          ns.map fun n => ⟨n, some (.other commitCanceled)⟩), res'), w') := by
    rw [Copying.origs, exec_readAll_before, hc, List.map_cons, exec_readAll_cons]
    simp only [exec_read_eof, hcall, List.map_cons, exec_readAll_cons, hcall', hsettled.readAll]
    rfl
  exact paid_of_settled (by simp [hc]) hreads (by simp) (by simp) hsettled hconsumed

theorem Held.paid_iff {C : Contract nl} (hreliable : Reliable C) (res : Response) {w : World L}
    (h : Held C res.tx w) (c : Copying) :
    Paid C res.tx c w (exec nl (res.serve codec marshalText d c) w) ↔
      c.Settles codec res.refundAmount := by
  unfold Copying.Settles
  by_cases hdecodes : Decodes codec res.refundAmount
  · match hc : c.atEOF with
    | [] => exact h.paid_of_no_eof hc
    | [n] => simp [h.paid_of_decodes hreliable hc hdecodes, hdecodes]
    | [n, n'] => simp [h.paid_of_decodes hreliable hc hdecodes, hdecodes]
    | n :: n' :: n'' :: ns => simp [h.paid_of_decodes hreliable hc hdecodes]
  · match hc : c.atEOF with
    | [] => exact h.paid_of_no_eof hc
    | [n] => exact iff_of_false (h.not_paid_of_not_decodes hc hdecodes) hdecodes
    | [n, n'] => simp [h.paid_of_not_decodes hreliable hc hdecodes, hdecodes]
    | n :: n' :: n'' :: ns => simp [h.paid_of_not_decodes hreliable hc hdecodes]

end

/-- A response is paid for if and only if its body is read so. -/
theorem served_paid_iff {nl : NonceLocker L} (C : Contract nl) (hreliable : Reliable C)
    (codec : TextCodec) (marshalText : UnblindedCredit → Except Err Bytes) (d : Draw)
    (issuer : Issuer) (cred : BlindedCredit) {tx : Transaction} {w w' : World L}
    (hctx : w.cancel = none) (hbegin : exec nl (beginTransaction issuer cred) w = (.ok tx, w'))
    (trailer : Bytes) (c : Copying) :
    Paid C tx c w' (exec nl (Response.serve codec marshalText d ⟨tx, trailer, none⟩ c) w') ↔
      c.Settles codec trailer :=
  Held.paid_iff hreliable ⟨tx, trailer, none⟩ (held_of_begin hctx hbegin) c

/-! ## With the in-memory locker -/

theorem InMem.reliable (now : Int) (rand : Except Err (Vector UInt8 8)) :
    Reliable (InMem.contract now rand) := by
  intro n t l hlocked
  obtain ⟨l', hl', -⟩ := InMem.consumeNonce_of_locked t hlocked
  exact congrArg Prod.fst hl'

/-- A locker with its contract, and a transaction that begins on it. -/
def memLocker : Anonpay.NonceLocker InMem.NonceLocker :=
  InMem.nonceLocker 0 (.ok (Vector.replicate 8 1))

def memContract : Contract memLocker := InMem.contract 0 (.ok (Vector.replicate 8 1))

theorem memContract_reliable : Reliable memContract := InMem.reliable _ _

def paidCredit : BlindedCredit := ⟨Value.ofNat 5, ⟨0, List.replicate 16 7, false⟩, []⟩

def begunTx : Transaction :=
  ⟨⟨.accepting⟩, paidCredit, ⟨Hex.encodeToString (List.replicate 8 1)⟩, none⟩

def freshWorld : World InMem.NonceLocker := ⟨.new, .new, [], none⟩

def begunWorld : World InMem.NonceLocker :=
  (exec memLocker (beginTransaction ⟨.accepting⟩ paidCredit) freshWorld).2

theorem exec_begin_fresh : exec memLocker (beginTransaction ⟨.accepting⟩ paidCredit) freshWorld =
    (.ok begunTx, begunWorld) := rfl

/-- The decoders of a trailer that is the bytes of a value, and a draw for the refund. -/
def rawCodec : TextCodec := ⟨.ok, fun b => .ok (some b)⟩

def refundDraw : Draw := ⟨.ok ([], []), .ok ⟨0, List.replicate 16 9, false⟩⟩

/-- The results of the reads and the world after a response with this trailer is served. -/
def served (trailer : Bytes) (c : Copying) : List ReadResult × World InMem.NonceLocker :=
  exec memLocker (Response.serve rawCodec (fun _ => .ok []) refundDraw ⟨begunTx, trailer, none⟩ c)
    begunWorld

theorem paid_served_iff (trailer : Bytes) (c : Copying) :
    Paid memContract begunTx c begunWorld (served trailer c) ↔ c.Settles rawCodec trailer :=
  Held.paid_iff memContract_reliable ⟨begunTx, trailer, none⟩
    (held_of_begin (w := freshWorld) rfl exec_begin_fresh) c

/-- A body of three bytes, with a refund of one unit. -/
theorem served_paid_refund :
    Paid memContract begunTx ⟨[(3, none)], [0], false, true⟩ begunWorld
      (served [0, 1] ⟨[(3, none)], [0], false, true⟩) :=
  (served_paid_iff memContract memContract_reliable rawCodec (fun _ => .ok []) refundDraw
    ⟨.accepting⟩ paidCredit (w := freshWorld) rfl exec_begin_fresh [0, 1] _).2 (.inr ⟨_, rfl⟩)

/-- The body is read once to its end, and nothing fails. -/
def readOnce : Copying := ⟨[(3, none)], [0], false, false⟩

/-- The body is read twice at its end. -/
def readTwice : Copying := ⟨[(3, none)], [0, 0], false, false⟩

/-- The connection to the node breaks, and the proxy runs under a server. -/
def broken : Copying := ⟨[(3, some (.new "connection reset by peer" []))], [], false, true⟩

/-- A trailer that is not a value gives the credit back after the whole body was served; a second
read at the end fails; and if the connection to the node breaks, the credit stays locked. -/
theorem served_unpaid :
    (memContract.status (served [255] readOnce).2.locker paidCredit.nonce.nonce = .free ∧
        ¬ Paid memContract begunTx readOnce begunWorld (served [255] readOnce)) ∧
      ((served [] readTwice).1 =
          [⟨3, none⟩, ⟨0, some .eof⟩, ⟨0, some (.other commitCanceled)⟩] ∧
        ¬ Paid memContract begunTx readTwice begunWorld (served [] readTwice)) ∧
      memContract.status (served [] broken).2.locker paidCredit.nonce.nonce =
          .locked begunTx.lockedNonce.ticket ∧
        ¬ Paid memContract begunTx broken begunWorld (served [] broken) := by
  simp only [paid_served_iff]
  refine ⟨⟨rfl, ?_⟩, ⟨rfl, ?_⟩, rfl, ?_⟩
  · rintro (hnil | ⟨value, hvalue⟩)
    · cases hnil
    · cases hvalue
  · exact fun h => h (.inl rfl)
  · exact fun h => h ⟨rfl, .inr ⟨_, List.mem_singleton_self _, by simp⟩⟩

end Router
