/-
  File:      NativePg/Multiplexer/Deliveries.lean
  Subject:   In which order the responses of a session arrive.

  Tickets know how much of their responses has been delivered; the server sends one stream. Between
  the two:

  * `received`, `responses` -- what has been delivered to the emitted tickets, and all of it that
    is to be, one ticket behind the other;
  * `Before` -- what holds of two tickets, the first of which was added earlier. `Ordered` -- of
    any two;
  * `Ordered.of_conforms` -- every step of a conforming session keeps this;
  * **`next_outstanding`** -- what the stream goes on with is the next message of the first ticket
    whose response is outstanding.
-/
import NativePg.Lib.Delimited
import NativePg.Multiplexer.Tickets

namespace NativePg

namespace Multiplexing

/-! ## 1. The stream -/

/-- What has been delivered. -/
def received (ts : List Ticket) : List AnyBackendMessage :=
  (ts.filter (·.emitted)).flatMap fun t => t.resp.take t.sent

/-- What is to be delivered for the requests that have been written. -/
def responses (ts : List Ticket) : List AnyBackendMessage :=
  (ts.filter (·.emitted)).flatMap (·.resp)

theorem received_append (ts ts' : List Ticket) :
    received (ts ++ ts') = received ts ++ received ts' := by
  rw [received, List.filter_append, List.flatMap_append]
  rfl

theorem responses_append (ts ts' : List Ticket) :
    responses (ts ++ ts') = responses ts ++ responses ts' := by
  rw [responses, List.filter_append, List.flatMap_append]
  rfl

theorem received_cons (t : Ticket) (ts : List Ticket) :
    received (t :: ts) = (if t.emitted then t.resp.take t.sent else []) ++ received ts := by
  unfold received
  cases h : t.emitted with
  | true => rw [List.filter_cons_of_pos h, List.flatMap_cons, if_pos rfl]
  | false => rw [List.filter_cons_of_neg (by simp [h]), if_neg (by decide), List.nil_append]

theorem responses_cons (t : Ticket) (ts : List Ticket) :
    responses (t :: ts) = (if t.emitted then t.resp else []) ++ responses ts := by
  unfold responses
  cases h : t.emitted with
  | true => rw [List.filter_cons_of_pos h, List.flatMap_cons, if_pos rfl]
  | false => rw [List.filter_cons_of_neg (by simp [h]), if_neg (by decide), List.nil_append]

/-- Tickets with nothing outstanding have received their responses. -/
theorem received_eq_responses : ∀ {ts : List Ticket}, (∀ t ∈ ts, ¬t.Outstanding) →
    received ts = responses ts
  | [], _ => rfl
  | t :: ts, h => by
      rw [received_cons, responses_cons,
        received_eq_responses fun x hx => h x (List.mem_cons_of_mem _ hx)]
      cases he : t.emitted with
      | false => rfl
      | true =>
        have hnot := h t List.mem_cons_self
        have hle : t.resp.length ≤ t.sent := by
          by_contra hlt
          exact hnot ⟨he, by omega⟩
        rw [List.take_of_length_le hle]

/-- Where everything has been received, every written request has its whole response. -/
theorem complete_of_received_eq : ∀ {ts : List Ticket}, received ts = responses ts →
    ∀ t ∈ ts, t.emitted = true → t.resp.length ≤ t.sent
  | [], _, t, ht => by cases ht
  | t :: ts, h, x, hx => by
      have hle : ∀ ts : List Ticket, (received ts).length ≤ (responses ts).length := by
        intro ts
        induction ts with
        | nil => exact Nat.le_refl 0
        | cons t ts ih =>
          rw [received_cons, responses_cons, List.length_append, List.length_append]
          split <;> simp only [List.length_take, List.length_nil] <;> omega
      rw [received_cons, responses_cons] at h
      cases he : t.emitted with
      | false =>
        rw [he] at h
        rcases List.mem_cons.mp hx with rfl | hx
        · exact fun hemitted => by rw [he] at hemitted; cases hemitted
        · exact complete_of_received_eq h x hx
      | true =>
        rw [he, if_pos rfl, if_pos rfl] at h
        have hlength := congrArg List.length h
        rw [List.length_append, List.length_append, List.length_take] at hlength
        have hrest := hle ts
        have hfirst : t.resp.length ≤ t.sent := by omega
        rw [List.take_of_length_le hfirst] at h
        rcases List.mem_cons.mp hx with rfl | hx
        · exact fun _ => hfirst
        · exact complete_of_received_eq (List.append_cancel_left h) x hx

/-- Tickets nothing has been sent to have received nothing. -/
theorem received_eq_nil : ∀ {ts : List Ticket}, (∀ t ∈ ts, t.sent = 0) → received ts = []
  | [], _ => rfl
  | t :: ts, h => by
      rw [received_cons, received_eq_nil fun x hx => h x (List.mem_cons_of_mem _ hx),
        h t List.mem_cons_self]
      simp

/-! ## 2. The order of tickets -/

/-- What holds of `x` and a ticket `y` that was added behind it: `y` is not written before `x`, and
    nothing is sent to `y` while `x` waits for its response. -/
structure Before (x y : Ticket) : Prop where
  emitted : y.emitted = true → x.emitted = true ∨ x.cancelled ≠ none
  sent : 0 < y.sent → ¬x.Outstanding

/-- The tickets are in order. -/
def Ordered (ts : List Ticket) : Prop := ts.Pairwise Before

/-- One ticket is replaced. -/
theorem Ordered.replace {pre post : List Ticket} {t t' : Ticket}
    (h : Ordered (pre ++ t :: post)) (hpre : ∀ x ∈ pre, Before x t → Before x t')
    (hpost : ∀ y ∈ post, Before t y → Before t' y) : Ordered (pre ++ t' :: post) := by
  unfold Ordered at h ⊢
  rw [List.pairwise_append, List.pairwise_cons] at h ⊢
  obtain ⟨h1, ⟨h2, h3⟩, h4⟩ := h
  refine ⟨h1, ⟨fun y hy => hpost y hy (h2 y hy), h3⟩, fun x hx y hy => ?_⟩
  rcases List.mem_cons.mp hy with rfl | hy
  · exact hpre x hx (h4 x hx t List.mem_cons_self)
  · exact h4 x hx y (List.mem_cons_of_mem _ hy)

theorem Before.emit {x y : Ticket} (h : Before x y) (hy : y.Ok) :
    Before x.emit y.emit := by
  have hsent : ∀ t : Ticket, t.emit.sent = t.sent := by
    intro t
    unfold Ticket.emit
    split <;> rfl
  constructor
  · intro _
    unfold Ticket.emit
    by_cases hc : x.cancelled = none
    · rw [if_pos hc]
      exact .inl rfl
    · rw [if_neg hc]
      exact .inr hc
  · intro hpos
    rw [hsent] at hpos
    unfold Ticket.emit
    by_cases hc : x.cancelled = none
    · rw [if_pos hc]
      -- something was sent to `y`, so that both have been written before
      have hye : y.emitted = true := by
        by_contra hne
        have := hy.sent (by simpa using hne)
        omega
      have hxe : x.emitted = true := (h.emitted hye).resolve_right (by simp [hc])
      rintro ⟨-, hlt⟩
      exact h.sent hpos ⟨hxe, hlt⟩
    · rw [if_neg hc]
      exact h.sent hpos

/-- **Every step of a conforming session keeps the order.** -/
theorem Ordered.of_conforms {ts ts' : List Ticket} {op : Op} (h : Ordered ts)
    (hok : ∀ t ∈ ts, t.Ok) (hc : Conforms ts op ts') : Ordered ts' := by
  cases hc with
  | add hacc hresp =>
      unfold Ordered at h ⊢
      rw [List.pairwise_append]
      refine ⟨h, List.pairwise_singleton _ _, fun x _ y hy => ?_⟩
      rw [List.mem_singleton.mp hy]
      exact ⟨fun he => (by cases he), fun hpos => absurd hpos (Nat.lt_irrefl 0)⟩
  | cancel hnone hopen =>
      exact h.replace (fun x _ hx => ⟨hx.emitted, hx.sent⟩)
        fun y _ hy => ⟨fun _ => .inr (by simp), hy.sent⟩
  | prepareWrite =>
      unfold Ordered at h ⊢
      rw [List.pairwise_map]
      exact h.imp_of_mem fun _ hy hxy => hxy.emit (hok _ hy)
  | async _ => exact h
  | @serve pre post t msg hpre hemitted hmsg =>
      obtain ⟨hlt, -⟩ := List.getElem?_eq_some_iff.mp hmsg
      refine h.replace (fun x hx hxt => ⟨hxt.emitted, fun _ => hpre x hx⟩) fun y _ hy =>
        ⟨hy.emitted, fun hpos => ?_⟩
      exact absurd ⟨hemitted, hlt⟩ (hy.sent hpos)

/-- Behind a `prepare_write` the stream goes on, and nothing more has been received. -/
theorem responses_emit : ∀ {ts : List Ticket}, Ordered ts →
    responses ts <+: responses (ts.map Ticket.emit)
  | [], _ => List.prefix_rfl
  | t :: ts, h => by
      obtain ⟨hhead, htail⟩ := List.pairwise_cons.mp h
      have ih := responses_emit htail
      rw [List.map_cons, responses_cons, responses_cons]
      by_cases hc : t.cancelled = none
      · cases he : t.emitted with
        | true =>
          have hemit : t.emit.emitted = true ∧ t.emit.resp = t.resp := by
            unfold Ticket.emit
            rw [if_pos hc]
            exact ⟨rfl, rfl⟩
          rw [hemit.1, hemit.2]
          exact (List.prefix_append_right_inj _).mpr ih
        | false =>
          -- a request that is still to be written: none behind it has been
          have hnone : ts.filter (·.emitted) = [] := by
            refine List.filter_eq_nil_iff.mpr fun y hy hye => ?_
            rcases (hhead y hy).emitted hye with hte | htc
            · rw [he] at hte
              cases hte
            · exact htc hc
          have hnil : responses ts = [] := by rw [responses, hnone]; rfl
          rw [hnil, if_neg (by decide)]
          exact List.nil_prefix
      · have hemit : t.emit = t := by
          unfold Ticket.emit
          exact if_neg hc
        rw [hemit]
        exact (List.prefix_append_right_inj _).mpr ih

theorem received_emit : ∀ {ts : List Ticket}, (∀ t ∈ ts, t.Ok) →
    received (ts.map Ticket.emit) = received ts
  | [], _ => rfl
  | t :: ts, h => by
      have ih := received_emit fun x hx => h x (List.mem_cons_of_mem _ hx)
      rw [List.map_cons, received_cons, received_cons, ih]
      congr 1
      unfold Ticket.emit
      by_cases hc : t.cancelled = none
      · rw [if_pos hc]
        cases he : t.emitted with
        | true => rfl
        | false =>
          rw [(h t List.mem_cons_self).sent he]
          rfl
      · rw [if_neg hc]

/-! ## 3. What comes next -/

/-- **The stream goes on with the next message of the first outstanding response.** -/
theorem next_outstanding {ts : List Ticket} {msg : AnyBackendMessage} (h : Ordered ts)
    (hnext : received ts ++ [msg] <+: responses ts) :
    ∃ pre t post, ts = pre ++ t :: post ∧ (∀ x ∈ pre, ¬x.Outstanding) ∧ t.emitted = true ∧
      t.resp[t.sent]? = some msg ∧
      received (pre ++ { t with sent := t.sent + 1 } :: post) = received ts ++ [msg] := by
  by_cases hall : ∀ t ∈ ts, ¬t.Outstanding
  · -- everything has been delivered, and the stream cannot go on
    rw [received_eq_responses hall] at hnext
    have := hnext.length_le
    simp at this
  · obtain ⟨pre, t, post, rfl, hpre, ht⟩ :
        ∃ pre t post, ts = pre ++ t :: post ∧ (∀ x ∈ pre, ¬x.Outstanding) ∧ t.Outstanding := by
      have hsome : ∃ x ∈ ts, ¬¬x.Outstanding := by
        by_contra hne
        exact hall fun x hx hout => hne ⟨x, hx, not_not.mpr hout⟩
      obtain ⟨pre, t, post, hts, hpre, ht⟩ := Delimited.exists_first hsome
      exact ⟨pre, t, post, hts, hpre, not_not.mp ht⟩
    obtain ⟨hemitted, hlt⟩ := ht
    have hpost : ∀ y ∈ post, y.sent = 0 := by
      intro y hy
      by_contra hne
      have hbefore := (List.pairwise_cons.mp (List.pairwise_append.mp h).2.1).1 y hy
      exact hbefore.sent (Nat.pos_of_ne_zero hne) ⟨hemitted, hlt⟩
    have hreceived : ∀ t' : Ticket, t'.emitted = true →
        received (pre ++ t' :: post) = responses pre ++ t'.resp.take t'.sent := by
      intro t' he
      rw [received_append, received_cons, received_eq_nil hpost, received_eq_responses hpre, he]
      simp
    rw [hreceived t hemitted, responses_append, responses_cons, hemitted, List.append_assoc,
      if_pos rfl] at hnext
    have hcut : t.resp.take t.sent ++ [msg] <+: t.resp :=
      List.prefix_of_prefix_length_le ((List.prefix_append_right_inj _).mp hnext)
        (List.prefix_append ..) (by simp; omega)
    have hmsg : t.resp[t.sent]? = some msg := by
      have hlen : (t.resp.take t.sent).length = t.sent := List.length_take_of_le (by omega)
      obtain ⟨more, hmore⟩ := hcut
      rw [← hmore, List.append_assoc, List.getElem?_append_right (by omega), hlen, Nat.sub_self]
      rfl
    refine ⟨pre, t, post, rfl, hpre, hemitted, hmsg, ?_⟩
    rw [hreceived { t with sent := t.sent + 1 } hemitted, hreceived t hemitted, List.append_assoc]
    exact congrArg _ (take_succ_of_getElem? hmsg)

end Multiplexing

end NativePg
