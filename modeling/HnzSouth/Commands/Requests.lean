import Mathlib.Data.Finset.Card
import HnzSouth.Commands.Encoding
import HnzSouth.Sending.Transmissions
import HnzSouth.Sending.Window

/-!
# Commands/Requests — what was refused is not sent

A command or a GI request that finds the window full is queued, and yet reported as not sent: the
command is not registered, the GI not counted.  The next acknowledgement may let it out.  In a run
in which no new number comes while a request waits for its first transmission, a refused command is
never sent, and every GI request that leaves for the first time was counted
(`Plugin.reported_of_run`).  A command that is reported as sent always was (`operation_reported`).
-/

namespace Hnz

open Machinery

/-- A request of the plugin: a GI or a command. -/
def isRequest [Platform] (payload : List UInt8) : Bool :=
  payload == System.giPayload || payload.head? == some Platform.tcCode ||
    payload.head? == some Platform.tvcCode

namespace Link

variable {c : PathConf} {now : Int} {l l' : Link} {op : Op} {b : Nat × List UInt8}

/-! ## First transmissions of a link -/

/-- **Every unacknowledged message was transmitted.** -/
def SentOut (l : Link) : Prop := ∀ m ∈ l.msgSent, m.body ∈ l.transmitted

theorem SentOut.of_subset (h : l.SentOut) {new : List (Nat × List UInt8)}
    (hsent : l'.msgSent.map Message.body ⊆ l.msgSent.map Message.body ++ new)
    (htransmitted : l'.transmitted = l.transmitted ++ new) : l'.SentOut := by
  intro m hm
  rw [htransmitted]
  rcases List.mem_append.mp (hsent (List.mem_map_of_mem hm)) with hold | hnew
  · obtain ⟨x, hx, hbody⟩ := List.mem_map.mp hold
    exact List.mem_append_left _ (hbody ▸ h x hx)
  · exact List.mem_append_right _ hnew

theorem SentOut.step (h : l.SentOut) (hst : Step c l op l') : l'.SentOut := by
  cases hst with
  | submit now msg =>
    have htransmitted : (l.sendInfo c now msg).2.transmitted = _ := transmitted_sendInfo msg
    rw [sendInfo_eq] at htransmitted ⊢
    by_cases hadmits : l.admits c msg
    · by_cases hroom : l.msgSent.length < c.anticipationRatio
      · rw [if_pos hadmits, if_pos hroom] at htransmitted ⊢
        have hm : (l.take msg).admits c (l.submitted msg).payload := hadmits
        refine h.of_subset ?_ htransmitted
        rw [transmit_of_admits hm]
        simp [take, Message.body, submitted]
      · rw [if_pos hadmits, if_neg hroom] at htransmitted ⊢
        exact h.of_subset (List.subset_append_left _ _) htransmitted
    · rw [if_neg hadmits]
      exact h
  | acknowledge hrr =>
    obtain ⟨out, hout, -, hsent⟩ := transmitted_receivedRR hrr
    exact h.of_subset hsent hout
  | @inform now type ok _ _ hrr =>
    obtain ⟨l₁, h₁, hl'⟩ := sendRR_cases hrr
    obtain ⟨out, hout, -, hsent⟩ := transmitted_receivedRR h₁
    have hl₁ := h.of_subset hsent hout
    obtain ⟨-, rfl⟩ | ⟨-, -, rfl⟩ | ⟨-, -, -, rfl⟩ | ⟨-, -, -, rfl⟩ := hl'
    · exact hl₁
    · exact hl₁.of_subset (List.subset_append_left _ _) (transmitted_sendFrame now _ true none)
    · exact hl₁.of_subset (List.subset_append_left _ _) (transmitted_sendFrame now _ true none)
    · exact hl₁
  | @resend now rt current m l htimeout =>
    have htransmitted : (l.resend c now m).transmitted = _ :=
      transmitted_sendFrame now (infoType l.nr m.ns true :: m.payload) false (some m.id)
    exact h.of_subset (List.Subset.trans (List.map_subset _ (List.take_subset 1 _))
      (List.subset_append_left _ _)) htransmitted
  | supervise now =>
    exact h.of_subset (List.subset_append_left _ _) (transmitted_sendFrame now _ _ none)
  | touch hcore =>
    intro m hm
    have hsent : l'.msgSent = l.msgSent := congrArg Core.msgSent hcore
    have hframes : l'.frames = l.frames := congrArg Core.frames hcore
    rw [transmitted, hframes]
    exact h m (hsent ▸ hm)

theorem SentOut.transition (h : l.SentOut) (now : Int) (e : ConnectionEvent) :
    (l.transition now e).SentOut := by
  intro m hm
  rw [transmitted_transition]
  rw [msgSent_transition] at hm
  split_ifs at hm
  · cases hm
  · exact h m hm

/-- **No request waits for its first transmission** when a new number comes. -/
def KeepsBack [Platform] (_ : PathConf) (x : Core) : Op → Prop
  | .acknowledge type | .inform type => x.Advances (nrField type) →
    ∀ m ∈ x.msgWaiting, isRequest m.payload → m.body ∈ x.frames.filterMap Frame.body
  | _ => True

instance [Platform] (c : PathConf) (x : Core) : (op : Op) → Decidable (KeepsBack c x op)
  | .acknowledge type | .inform type => inferInstanceAs (Decidable (x.Advances (nrField type) →
    ∀ m ∈ x.msgWaiting, _ → _ ∈ x.frames.filterMap Frame.body))
  | .submit _ _ | .resend | .supervise | .touch => inferInstanceAs (Decidable True)

/-- **Only a submission** transmits a request for the first time. -/
theorem Step.fresh [Platform] (h : Step c l op l') (hsent : l.SentOut)
    (hgood : op.Moves → KeepsBack c l.core op) (hb : b ∈ l'.transmitted) (hreq : isRequest b.2) :
    b ∈ l.transmitted ∨ ∃ msg, op = .submit msg true ∧ b = (l.taken.length, msg) := by
  obtain ⟨new, hnew, hcause⟩ := h.transmitted
  rw [hnew] at hb
  rcases List.mem_append.mp hb with hb | hb
  · exact Or.inl hb
  cases hcause b hb with
  | submit msg => exact Or.inr ⟨msg, rfl, rfl⟩
  | resend hm => exact Or.inl (hsent _ hm)
  | acknowledge hm hnr => exact Or.inl (hgood trivial hnr _ hm hreq)
  | inform hm hnr => exact Or.inl (hgood trivial hnr _ hm hreq)

/-! ## Counting the GI requests -/

/-- How many GI requests a path has transmitted, each counted once. -/
def giTransmitted (l : Link) : Nat :=
  (l.transmitted.filter fun b => b.2 == System.giPayload).toFinset.card

theorem giTransmitted_congr
    (h : ∀ b : Nat × List UInt8, b.2 = System.giPayload →
      (b ∈ l'.transmitted ↔ b ∈ l.transmitted)) : l'.giTransmitted = l.giTransmitted := by
  refine congrArg Finset.card (Finset.ext fun b => ?_)
  simp only [List.mem_toFinset, List.mem_filter, beq_iff_eq, and_congr_left_iff]
  exact h b

theorem giTransmitted_snoc {k : Nat} (hnew : (k, System.giPayload) ∉ l.transmitted)
    (h : l'.transmitted = l.transmitted ++ [(k, System.giPayload)]) :
    l'.giTransmitted = l.giTransmitted + 1 := by
  have hfilter : (l'.transmitted.filter fun b => b.2 == System.giPayload).toFinset =
      insert (k, System.giPayload)
        (l.transmitted.filter fun b => b.2 == System.giPayload).toFinset := by
    ext b
    simp only [h, List.mem_toFinset, List.mem_filter, List.mem_append, List.mem_singleton,
      beq_iff_eq, Finset.mem_insert]
    constructor
    · rintro ⟨hold | rfl, hgi⟩
      · exact Or.inr ⟨hold, hgi⟩
      · exact Or.inl rfl
    · rintro (rfl | ⟨hold, hgi⟩)
      · exact ⟨Or.inr rfl, rfl⟩
      · exact ⟨Or.inl hold, hgi⟩
  rw [giTransmitted, hfilter, Finset.card_insert_of_notMem (by simp [hnew]), giTransmitted]

theorem giTransmitted_sendInfo (h : l.Traced) :
    (l.sendInfo c now System.giPayload).2.giTransmitted =
      l.giTransmitted + (l.sendInfo c now System.giPayload).1.toNat := by
  have htransmitted : (l.sendInfo c now System.giPayload).2.transmitted = _ :=
    transmitted_sendInfo System.giPayload
  cases hsent : (l.sendInfo c now System.giPayload).1 with
  | true =>
    rw [hsent, if_pos rfl] at htransmitted
    exact giTransmitted_snoc (h.fresh _) htransmitted
  | false =>
    rw [hsent, if_neg Bool.false_ne_true, List.append_nil] at htransmitted
    rw [giTransmitted, htransmitted]
    rfl

end Link

/-- Every message is traced, and the unacknowledged ones were transmitted. -/
theorem linkInvariant_sentOut :
    LinkInvariant (fun _ _ _ => True) fun _ l => l.Traced ∧ l.SentOut where
  init {c l} h := by
    have hsent : l.msgSent = [] := congrArg Link.Core.msgSent h
    exact ⟨linkInvariant_traced.init (c := c) h, by simp [Link.SentOut, hsent]⟩
  step h hst _ := ⟨h.1.step hst, h.2.step hst⟩
  transition now e h := ⟨h.1.transition now e, h.2.transition now e⟩

namespace System

variable {s t : System}

/-- Both links are traced, and what they hold unacknowledged was transmitted. -/
abbrev Accounted (s : System) : Prop := LinkInvariant.Holds (fun _ l => l.Traced ∧ l.SentOut) s

/-- **Every GI request that left** was counted once. -/
def GiCounted (s : System) : Prop :=
  s.connection.giNotified = (s.path .A).giTransmitted + (s.path .B).giTransmitted

theorem GiCounted.congr (h : s.GiCounted)
    (hnotified : t.connection.giNotified = s.connection.giNotified)
    (hpath : ∀ p, (t.path p).giTransmitted = (s.path p).giTransmitted) : t.GiCounted := by
  rw [GiCounted, hnotified, hpath, hpath]
  exact h

/-- A request is counted if it is transmitted. -/
theorem GiCounted.interrogate (h : s.GiCounted) (hs : Accounted s) (p : PathId) (now : Instant) :
    (s.sendGeneralInterrogation p now).GiCounted := by
  have hother : ∀ q, q ≠ p →
      ((s.sendGeneralInterrogation p now).path q).giTransmitted = (s.path q).giTransmitted := by
    intro q hq
    rw [link_sendGeneralInterrogation, if_neg hq]
  have hpath : ((s.sendGeneralInterrogation p now).path p).giTransmitted =
      (s.path p).giTransmitted + (s.sendInfo p now giPayload).1.toNat := by
    rw [link_sendGeneralInterrogation, if_pos rfl]
    exact Link.giTransmitted_sendInfo (hs p).1
  rw [GiCounted] at h ⊢
  rw [giNotified_sendGeneralInterrogation, h]
  cases p with
  | A => rw [hpath, hother .B (by decide)]; omega
  | B => rw [hpath, hother .A (by decide)]; omega

end System

/-! ## A refused command -/

namespace System

variable [Platform] {s t u : System}

/-- **Every request transmitted since `s`** was submitted since `s`. -/
def OnlyNew (s t : System) : Prop :=
  ∀ p, (s.path p).taken.length ≤ (t.path p).taken.length ∧
    ∀ b ∈ (t.path p).transmitted, isRequest b.2 →
      b ∈ (s.path p).transmitted ∨ (s.path p).taken.length ≤ b.1

theorem connectionInvariant_onlyNew (s : System) :
    ConnectionInvariant Link.KeepsBack fun t => Accounted t ∧ OnlyNew s t where
  work {t u w} h hst hgood := by
    refine ⟨linkInvariant_sentOut.connection.work h.1 hst fun _ _ => trivial, fun p => ?_⟩
    obtain hsame | ⟨op, -, hl, hop⟩ := hst.link_cases_of_good hgood p
    · rw [hsame]
      exact h.2 p
    · refine ⟨?_, fun b hb hreq => ?_⟩
      · rw [hl.taken, List.length_append]
        exact (h.2 p).1.trans (Nat.le_add_right _ _)
      · obtain hold | ⟨msg, -, rfl⟩ := hl.fresh (h.1 p).2 hop hb hreq
        · exact (h.2 p).2 b hold hreq
        · exact Or.inr (h.2 p).1
  transition {t} p e now h := by
    refine ⟨linkInvariant_sentOut.protocolStateTransition h.1, fun q => ?_⟩
    rw [link_protocolStateTransition]
    split_ifs with hq
    · rw [hq, Link.transmitted_transition, Link.taken_transition]
      exact h.2 p
    · exact h.2 q

theorem connectionInvariant_giCounted :
    ConnectionInvariant Link.KeepsBack fun s => Accounted s ∧
      ((∀ p, ¬(s.pathConf p).isBULLE giPayload) → s.GiCounted) where
  work {s t w} h hst hgood := by
    refine ⟨linkInvariant_sentOut.connection.work h.1 hst fun _ _ => trivial, fun hbulle => ?_⟩
    have hbulle' : ∀ p, ¬(s.pathConf p).isBULLE giPayload := by
      intro p
      rw [pathConf, ← hst.conf]
      exact hbulle p
    have hcounted := h.2 hbulle'
    cases hst with
    | @link p op l hl hgi =>
      refine hcounted.congr rfl fun q => ?_
      rw [link_modifyLink]
      split_ifs with hq
      · subst hq
        refine Link.giTransmitted_congr fun b hb => ⟨fun hnew => ?_, fun hold => hl.subset hold⟩
        obtain hold | ⟨msg, rfl, rfl⟩ :=
          hl.fresh (h.1 q).2 (hgood rfl) hnew (by simp [isRequest, hb])
        · exact hold
        · obtain rfl : msg = giPayload := hb
          exact absurd (hgi true rfl) (hbulle' q)
      · rfl
    | interrogate p now => exact hcounted.interrogate h.1 p now
    | other hsame =>
      refine hcounted.congr hsame.giNotified fun p => ?_
      rw [path, hsame.path, path]
  transition {s} p e now h := by
    refine ⟨linkInvariant_sentOut.protocolStateTransition h.1, fun hbulle => ?_⟩
    have hbulle' : ∀ q, ¬(s.pathConf q).isBULLE giPayload := by
      intro q
      rw [← pathConf_protocolStateTransition (p := p) e now]
      exact hbulle q
    obtain ⟨_, _, _, _, _, hconn⟩ := arbitrates_protocolStateTransition (s := s) (p := p) e now
    have hnotified := congrArg HNZConnection.giNotified hconn
    refine (h.2 hbulle').congr hnotified fun q => ?_
    rw [link_protocolStateTransition]
    split_ifs with hq
    · rw [hq, Link.giTransmitted, Link.transmitted_transition, Link.giTransmitted]
    · rfl

/-! ## The answer of a command -/

variable {params : List (String × String)} {now : Instant} {p : PathId} {type : String}
  {address value : Int}

theorem isRequest_commandPayload (type : String) (address value : Int) :
    isRequest (commandPayload type address value) = true := by
  unfold commandPayload
  split_ifs <;> simp [isRequest, tcMessage, Link.tcPayload, Link.tvcPayload]

/-- A command is refused, or submitted to the active path. -/
theorem operation_cases (params : List (String × String)) (now : Instant) (s : System) :
    s.operation "HNZCommand" params now = (false, s) ∨
      ∃ type address value p, commandRequest params = some (type, address, value) ∧
        s.connection.activePath = some p ∧ (type = "TC" ∨ type = "TVC") := by
  cases hrequest : commandRequest params with
  | none => exact Or.inl (operation_refused (.inl hrequest))
  | some request =>
    obtain ⟨type, address, value⟩ := request
    cases hp : s.connection.activePath with
    | none => exact Or.inl (operation_refused (.inr hp))
    | some p =>
      by_cases htype : type = "TC" ∨ type = "TVC"
      · exact Or.inr ⟨type, address, value, p, rfl, rfl, htype⟩
      · have hrefused : (s.processCommandOperation params now).1 ≠ 0 ∧
            (s.processCommandOperation params now).2 = s := by
          obtain ⟨hname, -, -⟩ := commandRequest_eq_some hrequest
          obtain h | ⟨-, -, -, -, -, -, ⟨htc, -⟩ | ⟨htvc, -⟩⟩ :=
            processCommandOperation_cases params now s
          · exact h
          · exact absurd (Or.inl (hname.symm.trans htc)) htype
          · exact absurd (Or.inr (hname.symm.trans htvc)) htype
        refine Or.inl ?_
        rw [operation, if_pos rfl]
        exact Prod.ext (beq_eq_false_iff_ne.mpr hrefused.1) hrefused.2

/-- A command leaves the other path alone. -/
theorem path_operation_command (now : Instant)
    (hrequest : commandRequest params = some (type, address, value))
    (hp : s.connection.activePath = some p) (htype : type = "TC" ∨ type = "TVC") {q : PathId}
    (hq : q ≠ p) : (s.operation "HNZCommand" params now).2.path q = s.path q := by
  rw [operation_command hrequest hp htype, path_modifyLink, if_neg hq, sendInfo, path_modifyLink,
    if_neg hq]

/-- What a refused command submitted is a request, and not transmitted yet. -/
theorem operation_kept (hs : Accounted s)
    (hno : (s.operation "HNZCommand" params now).1 = false) {q : PathId} {b : Nat × List UInt8}
    (hplace : (s.path q).taken.length ≤ b.1)
    (hb : ((s.operation "HNZCommand" params now).2.path q).taken[b.1]? = some b.2) :
    isRequest b.2 ∧ b ∉ ((s.operation "HNZCommand" params now).2.path q).transmitted := by
  have hnew : b ∉ (s.path q).transmitted := by
    intro hold
    have hlt := (List.getElem?_eq_some_iff.mp ((hs q).1.transmitted b hold)).1
    exact absurd hlt (not_lt.mpr hplace)
  obtain hrefused | ⟨type, address, value, p, hrequest, hp, htype⟩ :=
    operation_cases params now s
  · rw [hrefused, List.getElem?_eq_none hplace] at hb
    cases hb
  by_cases hq : q = p
  · subst hq
    have hlink := link_operation_command now hrequest hp htype
    rw [hno] at hlink
    have hsent : (s.sendInfo q now (commandPayload type address value)).1 = false := by
      rw [← hno, operation_command hrequest hp htype]
    have htransmitted : ((s.operation "HNZCommand" params now).2.path q).transmitted =
        (s.path q).transmitted := by
      refine (congrArg Link.transmitted hlink).trans ((Link.transmitted_sendInfo _).trans ?_)
      exact (congrArg _ (if_neg (Bool.eq_false_iff.mp hsent))).trans (List.append_nil _)
    have htaken := (congrArg Link.taken hlink).trans
      (Link.Step.submit (c := s.pathConf q) now.ms (commandPayload type address value) _).taken
    refine ⟨?_, fun hmem => hnew (htransmitted ▸ hmem)⟩
    rw [htaken, List.getElem?_append_right hplace, Link.Op.takes] at hb
    have hmem := List.mem_of_getElem? hb
    split_ifs at hmem
    · rw [List.mem_singleton.mp hmem]
      exact isRequest_commandPayload type address value
    · cases hmem
  · rw [path_operation_command now hrequest hp htype hq, List.getElem?_eq_none hplace] at hb
    cases hb

/-- **A command that is reported as sent** was transmitted, whatever the state: one frame left on the
active path, and one entry was registered. -/
theorem operation_reported (s : System) (hyes : (s.operation "HNZCommand" params now).1 = true) :
    ∃ type address value p cmd,
      commandRequest params = some (type, address, value) ∧ s.connection.activePath = some p ∧
      ((s.operation "HNZCommand" params now).2.path p).frames = (s.path p).frames ++
        [⟨(s.pathConf p).addressARP, infoType (s.path p).nr (s.path p).ns false ::
          commandPayload type address value, some (s.path p).taken.length⟩] ∧
      ((s.operation "HNZCommand" params now).2.path p).commandSent =
        cmd :: (s.path p).commandSent ∧
      cmd.type = type ∧ cmd.addr = commandAddress type address ∧
      ∀ q, q ≠ p → (s.operation "HNZCommand" params now).2.path q = s.path q := by
  obtain hrefused | ⟨type, address, value, p, hrequest, hp, htype⟩ :=
    operation_cases params now s
  · rw [hrefused] at hyes
    cases hyes
  have hlink := link_operation_command now hrequest hp htype
  rw [hyes] at hlink
  have hsent : (s.sendInfo p now (commandPayload type address value)).1 = true := by
    rw [← hyes, operation_command hrequest hp htype]
  obtain ⟨hframes, hcommands⟩ := Link.sendInfo_of_sent hsent
  refine ⟨type, address, value, p,
    ⟨type, commandAddress type address, u64 (now.ms + (s.pathConf p).cAckTimeMax)⟩,
    hrequest, hp, ?_, ?_, rfl, rfl, fun q hq => path_operation_command now hrequest hp htype hq⟩
  · exact (congrArg Link.frames hlink).trans hframes
  · exact (congrArg Link.commandSent hlink).trans (congrArg _ hcommands)

/-- **The answer of a command is right**: if it is no, nothing that was submitted for it has been
transmitted; if it is yes, one frame has, and one entry was registered. -/
structure CommandReported (params : List (String × String)) (now : Instant) (s u : System) :
    Prop where
  no : (s.operation "HNZCommand" params now).1 = false → ∀ p b, (s.path p).taken.length ≤ b.1 →
    ((s.operation "HNZCommand" params now).2.path p).taken[b.1]? = some b.2 →
    b ∉ (u.path p).transmitted
  yes : (s.operation "HNZCommand" params now).1 = true → ∃ type address value p cmd,
    commandRequest params = some (type, address, value) ∧ s.connection.activePath = some p ∧
    ((s.operation "HNZCommand" params now).2.path p).frames = (s.path p).frames ++
      [⟨(s.pathConf p).addressARP, infoType (s.path p).nr (s.path p).ns false ::
        commandPayload type address value, some (s.path p).taken.length⟩] ∧
    ((s.operation "HNZCommand" params now).2.path p).commandSent =
      cmd :: (s.path p).commandSent ∧
    cmd.type = type ∧ cmd.addr = commandAddress type address ∧
    ∀ q, q ≠ p → (s.operation "HNZCommand" params now).2.path q = s.path q

/-- **The answer stays right**, whatever comes after the command. -/
theorem commandReported (hs : Accounted s) {evs : List Event}
    (hrun : Run (Under (LinkInvariant.MovesWell Link.KeepsBack) Step)
      (s.operation "HNZCommand" params now).2 evs u) : CommandReported params now s u where
  no hno q b hplace hb hmem := by
    obtain ⟨hreq, hnew⟩ := operation_kept hs hno hplace hb
    have hkept : Accounted u ∧ OnlyNew (s.operation "HNZCommand" params now).2 u := by
      refine hrun.invariant (I := fun x =>
        Accounted x ∧ OnlyNew (s.operation "HNZCommand" params now).2 x) ?_ ?_
      · rintro x ev y hx ⟨hgood, hst⟩
        exact (connectionInvariant_onlyNew _).event hst hgood hx
      · exact ⟨linkInvariant_sentOut.connection.works (works_operation "HNZCommand" params) hs,
          fun p => ⟨le_rfl, fun b hb _ => Or.inl hb⟩⟩
    obtain hold | hlate := (hkept.2 q).2 b hmem hreq
    · exact hnew hold
    · exact absurd (List.getElem?_eq_some_iff.mp hb).1 (not_lt.mpr hlate)
  yes := operation_reported s

end System

/-- **What was refused is not sent**, in every run in which no new number comes while a request waits
for its first transmission: a command that is reported as failed is never transmitted, one
that is reported as sent was transmitted and registered, and every GI request was counted. -/
theorem Plugin.reported_of_run [Platform] {pl : Plugin} {calls : List Plugin.Call}
    (h : Run (Under (LinkInvariant.PluginMovesWell Link.KeepsBack) Step) {} calls pl)
    {c : HNZConnection} (hc : pl.connection = some c) :
    ((∀ p, ¬(c.conf.pathConf p).isBULLE System.giPayload) → System.GiCounted ⟨pl.hnz, c⟩) ∧
      ∀ params now evs u, Run (Under (LinkInvariant.MovesWell Link.KeepsBack) System.Step)
        (System.operation "HNZCommand" params now ⟨pl.hnz, c⟩).2 evs u →
        System.CommandReported params now ⟨pl.hnz, c⟩ u := by
  have hdurable : Plugin.Durable fun s => System.Accounted s ∧
      ((∀ p, ¬(s.pathConf p).isBULLE System.giPayload) → s.GiCounted) := by
    refine ⟨?_, ?_, ?_⟩
    · exact fun _ h => ⟨h.1.of_eq rfl rfl, fun hbulle => (h.2 hbulle).congr rfl fun _ => rfl⟩
    · exact fun _ h => ⟨h.1.of_eq rfl rfl, fun hbulle => (h.2 hbulle).congr rfl fun _ => rfl⟩
    · intro hnz other now
      have hfresh := (System.create_fresh hnz now).1
      have hnone : ∀ p, ((System.create hnz now).path p).giTransmitted = 0 := by
        intro p
        have hframes : ((System.create hnz now).path p).frames = [] :=
          congrArg Link.Core.frames (hfresh.core p)
        rw [Link.giTransmitted, Link.transmitted, hframes]
        rfl
      have hcounted : (System.create hnz now).GiCounted := by
        rw [System.GiCounted, hfresh.giNotified, hnone, hnone]
      have hsent : System.Accounted ⟨other, (System.create hnz now).connection⟩ := by
        intro p
        exact linkInvariant_sentOut.init (c := hnz.conf.pathConf p) (hfresh.core p)
      exact ⟨hsent, fun _ => hcounted.congr rfl fun _ => rfl⟩
  have hkept := h.invariant (I := Plugin.InConnection _) (fun {pl call pl'} hpl hst =>
    hdurable.step hst.2 hpl fun x ev t hx hev ht => ?_) (fun c hc => by cases hc) c hc
  · exact ⟨hkept.2, fun params now evs u hrun => System.commandReported hkept.1 hrun⟩
  · subst hev
    exact System.connectionInvariant_giCounted.event ht
      (by simpa only [LinkInvariant.PluginMovesWell, hx] using hst.1) (hpl x hx)

/-! ## A fourth command -/

namespace Plugin

open Sample

/-- Path A is connected, and its window is full. -/
def filling : List Call :=
  commanding ++ [.event (.operation "HNZCommand" (System.tcRequest "33" "1") 0)]

/-- The station acknowledges the first message. -/
def acknowledging : Event := .frame .A [0x07, 0x21, 0xC0, 0xDE] 0

set_option maxRecDepth 8000 in
/-- The third command is sent, and the station acknowledges the first one. -/
theorem reported_commanding :
    ∃ (pl : Plugin) (c : HNZConnection) (u : System),
      exec Plugin.step {} commanding = some pl ∧ pl.connection = some c ∧
        (System.operation "HNZCommand" (System.tcRequest "33" "1") 0 ⟨pl.hnz, c⟩).1 = true ∧
        System.step (System.operation "HNZCommand" (System.tcRequest "33" "1") 0 ⟨pl.hnz, c⟩).2
          acknowledging = some u ∧
        System.GiCounted ⟨pl.hnz, c⟩ ∧
        System.CommandReported (System.tcRequest "33" "1") 0 ⟨pl.hnz, c⟩ u := by
  let pl : Plugin := (exec Plugin.step {} commanding).get rfl
  let c : HNZConnection := pl.connection.get rfl
  have hc : pl.connection = some c := rfl
  have hrun : Run (Under (LinkInvariant.PluginMovesWell Link.KeepsBack) Step) {} commanding pl :=
    run_under_iff.mpr rfl
  obtain ⟨hcounted, hreported⟩ := reported_of_run hrun hc
  have hbulle : ∀ p, ¬(c.conf.pathConf p).isBULLE System.giPayload := by
    intro p
    cases p <;> decide
  obtain ⟨t, ht⟩ : ∃ t, t =
      (System.operation "HNZCommand" (System.tcRequest "33" "1") 0 ⟨pl.hnz, c⟩).2 := ⟨_, rfl⟩
  have hgood : LinkInvariant.MovesWell Link.KeepsBack t acknowledging := by
    rw [ht]
    decide +kernel
  obtain ⟨u, hu⟩ : ∃ u, System.step t acknowledging = some u := by
    rw [ht]
    exact Option.isSome_iff_exists.mp (by decide +kernel)
  refine ⟨pl, c, u, rfl, hc, by decide +kernel, ht ▸ hu, hcounted hbulle, ?_⟩
  exact hreported (System.tcRequest "33" "1") 0 [acknowledging] u (ht ▸ Run.single ⟨hgood, hu⟩)

set_option maxRecDepth 8000 in
/-- The fourth command is reported as failed; the first acknowledgement lets it out, and it is not
registered. -/
theorem not_reported_filling :
    ∃ (pl : Plugin) (c : HNZConnection) (u : System),
      exec Plugin.step {} filling = some pl ∧ pl.connection = some c ∧
        (System.operation "HNZCommand" (System.tcRequest "34" "1") 0 ⟨pl.hnz, c⟩).1 = false ∧
        System.step (System.operation "HNZCommand" (System.tcRequest "34" "1") 0 ⟨pl.hnz, c⟩).2
          acknowledging = some u ∧
        (3, commandPayload "TC" 34 1) ∈ (u.path .A).transmitted ∧
        (u.path .A).commandSent.map CommandMessage.addr = [33, 32, 31] ∧
        ¬System.CommandReported (System.tcRequest "34" "1") 0 ⟨pl.hnz, c⟩ u := by
  let pl : Plugin := (exec Plugin.step {} filling).get rfl
  let c : HNZConnection := pl.connection.get rfl
  let t : System :=
    (System.operation "HNZCommand" (System.tcRequest "34" "1") 0 ⟨pl.hnz, c⟩).2
  let u : System := (System.step t acknowledging).get (by decide +kernel)
  have hu : System.step t acknowledging = some u := (Option.some_get _).symm
  have hno : (System.operation "HNZCommand" (System.tcRequest "34" "1") 0 ⟨pl.hnz, c⟩).1 = false :=
    by decide +kernel
  have hlater : (3, commandPayload "TC" 34 1) ∈ (u.path .A).transmitted := by decide +kernel
  have hregistered : (u.path .A).commandSent.map CommandMessage.addr = [33, 32, 31] := by
    decide +kernel
  refine ⟨pl, c, u, rfl, rfl, hno, hu, hlater, hregistered, fun h => ?_⟩
  have hplace : (c.path .A).taken.length = 3 := by decide +kernel
  have htaken : (t.path .A).taken[3]? = some (commandPayload "TC" 34 1) := by decide +kernel
  exact h.no hno .A (3, commandPayload "TC" 34 1) hplace.le htaken hlater

end Plugin

end Hnz
