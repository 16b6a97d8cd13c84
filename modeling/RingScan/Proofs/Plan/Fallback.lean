import RingScan.Proofs.Node.Rejections
import RingScan.Proofs.Plan.ConnectionProtocol

set_option autoImplicit false

/-! # Falling back to tokens

A replica that rejects the call for sized parts is asked for the tokens between the parts if the
code of the rejection says that it does not know the call, and for nothing more if the code says
anything else (`Path.fallback`). The code is the one in the body of the answer, and the status of
the answer only counts where the body has none (`code_decides_fallback`). -/

namespace RingScan.Plan

open Dialogue (Yields)
open Http (Authorization Client)

section Fallback

variable {c : Context} {l : Line} {last : Phase} {a : Authorization} {t : Task}

/-- Behind a handshake, a replica that rejects the call for sized parts is asked again just if it
    does not know that call. -/
theorem Path.fallback {sized : Exchange} {later : List Exchange} {r : Reply}
    (h : Path c l (.ready a) (sized :: later) last) (hlast : last.request? c l = none)
    (hl : l.purpose = .parts t) (hr : sized.outcome = .reply r)
    (hrejection : Client.isRejection r.status = true) :
    partsRequest? c l.host a Node.paths.splits t = some sized.request ∧
      (r.IsNotImplemented → ∃ again, later = [again] ∧
        partsRequest? c l.host a Node.paths.splitTokens t = some again.request) ∧
      (¬ r.IsNotImplemented → later = []) := by
  have hready : Phase.request? c l (.ready a) = partsRequest? c l.host a Node.paths.splits t := by
    simp only [Phase.request?, hl]
  have hdeclined : Phase.request? c l (.declined a) =
      partsRequest? c l.host a Node.paths.splitTokens t := by
    simp only [Phase.request?, hl]
  obtain ⟨cause, hending⟩ := (c.nodeAt l.host).ending_rejection sized.request.url
    ((Phase.ready a).expects l.purpose) hrejection
  cases h with
  | cons hsent h =>
    rw [hready] at hsent
    rw [Phase.ending, hr, hending] at h
    refine ⟨hsent, fun hunknown => ?_, fun hknown => ?_⟩
    · rw [if_pos hunknown] at h
      cases h with
      | nil => exact absurd (hdeclined ▸ hlast) (partsRequest?_congr hsent)
      | @cons _ _ again _ hagain h =>
        obtain ⟨rfl, -⟩ := h.eq_nil rfl
        exact ⟨again, rfl, hdeclined.symm.trans hagain⟩
    · rw [if_neg hknown] at h
      exact (h.eq_nil rfl).1

/-- Whether the call for the tokens between the parts of a task follows a rejected call for sized
    parts just if the code of the rejection asks for it. -/
def Connection.FallsBack (c : Context) (t : Task) (k : Connection) : Prop :=
  ∀ handshake sized later r, k.exchanges = handshake ++ sized :: later →
    handshake.length = c.handshakeLength → sized.outcome = .reply r →
    Client.isRejection r.status = true →
    ∃ a, partsRequest? c k.host a Node.paths.splits t = some sized.request ∧
      (r.IsNotImplemented → ∃ again, later = [again] ∧
        partsRequest? c k.host a Node.paths.splitTokens t = some again.request) ∧
      (¬ r.IsNotImplemented → later = [])

theorem Connection.Obeys.fallsBack {k : Connection} (h : k.Obeys c) (hk : k.purpose = .parts t) :
    k.FallsBack c t := by
  intro handshake sized later r hexchanges hlength hr hrejection
  obtain ⟨last, hpath, hlast⟩ := h.follows
  rw [hexchanges] at hpath
  obtain ⟨a, -, hcalls⟩ := hpath.exists_ready hlength
  exact ⟨a, hcalls.fallback hlast hk hr hrejection⟩

end Fallback

/-- **The code of a rejection decides.** Every call of a node that is rejected ends with the error
    that the node does not know the call if the code of the rejection is 501, and with a protocol
    error if it is any other. The code is the one in the body if the body is an object that has one
    which is not null, and else the status of the answer; nothing else of the answer counts. Hence
    in every attempt at a task, a replica that rejects the call for sized parts is asked for the
    tokens between the parts next if that code is 501, and is not asked for anything if it is not.
    -/
theorem code_decides_fallback (c : Context) (resolve : Resolver) :
    (∀ (n : Node) (call : Node.Call), n.HeedsRejections (n.make call)) ∧
      ∀ t es result, Yields (attempt c resolve t) es result →
        ∃ ks : List Connection, es = ks.flatMap (Connection.entries c) ∧
          ∀ k ∈ ks, k.FallsBack c t := by
  refine ⟨Node.make_heedsRejections, fun t es result hyields => ?_⟩
  obtain ⟨ks, rfl, hopens⟩ := attempt_opens hyields
  refine ⟨ks, rfl, fun k hk => ?_⟩
  obtain ⟨hobeys, hpurpose⟩ := hopens.forall_obeys k hk
  exact hobeys.fallsBack hpurpose

/-! ## Codes that differ from the status -/

/-- A network that gives answers that were written beforehand, one after the other. -/
def answering : Dialogue.Network (List Reply)
  | [], _ => (.failure .connection, [])
  | r :: rest, _ => (.reply r, rest)

/-- The answers of a replica that selects the keyspace, rejects the call for sized parts, and would
    tell the tokens between the parts. -/
def rejecting (status : Nat) (body : String) : List Reply :=
  [⟨200, "\x7b\x7d", []⟩, ⟨status, body, []⟩, ⟨200, "\x7b\"tokens\":[\"0\",\"5\",\"0\"]\x7d", []⟩]

/-- A task for all of the ring with one replica. -/
def loneTask : Task where
  range := ⟨.str "0", .str "0", [.str "a"], [.null]⟩
  splitSize := .int 64

/-- How many requests are sent to a replica that rejects the call for sized parts, and the kind of
    the error, if there is one. -/
def requestsAndError (status : Nat) (body : String) : ℕ × Option Category :=
  let run := (askHost oneSeed loneTask (.str "a")).run answering (rejecting status body)
  ((Dialogue.requests run.events).length,
    match run.result with
    | .ok _ => none
    | .error e => e.category?)

/-- The status does not decide: with a code of 400 in its body, an answer with the status 501 is
    an ordinary rejection, behind which nothing is asked. -/
theorem status_501_not_decisive :
    requestsAndError 501 "\x7b\"code\":400\x7d" = (2, some .protocol) ∧
      requestsAndError 500 "\x7b\"code\":501\x7d" = (3, none) := by
  decide +kernel

end RingScan.Plan
