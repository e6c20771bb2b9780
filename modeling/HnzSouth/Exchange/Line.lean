import HnzSouth.Effects.Events
import HnzSouth.Exchange.Incoming
import HnzSouth.Reception.Payload

/-!
# Exchange/Line — the sessions of the whole plugin

A path is one part of a plugin that sends commands, runs general interrogations, watches its timers
and switches to the other path.  On a `Line` all of that goes on, and a station is at the other end of
one path; while nothing disturbs the connection of this path, a run of the line is a run of a session
(`Line.Shows.run`), so that what is true of sessions is true of the plugin.
-/

namespace Hnz

open Machinery

/-! ## The messages of a payload -/

section

variable [Platform] {c : PathConf} {n : Int} {payload crc : List UInt8} {l l' : Link}
  {messages : List (List UInt8)}

/-- The messages of a payload.  Its CRC is read only where the payload ends with the first byte of a
BULLE, and then goes on with another byte. -/
def messagesOf (c : PathConf) (payload : List UInt8) : List (List UInt8) :=
  match extractMessages c 0 (payload ++ filler c) payload.length {} with
  | .ok (messages, _) => messages
  | .error _ => []

/-- What the path extracts from a frame is the messages of its payload. -/
theorem messagesOf_eq (hcrc : crc.length = 2)
    (h : extractMessages c n (payload ++ crc) payload.length l = .ok (messages, l')) :
    messagesOf c payload = messages := by
  rcases payload with - | ⟨type, rest⟩
  · have hnone : ∀ {k : Int} {after : List UInt8} {x x' : Link} {ms : List (List UInt8)},
        after.length = 2 → extractMessages c k ([] ++ after) ([] : List UInt8).length x = .ok (ms, x') →
        ms = [] := by
      intro k after x x' ms hafter hx
      obtain ⟨_, _, _, _, -, -, -, -, hcases⟩ := extractFrom_cases hafter.le (by decide) hx
      obtain ⟨-, -, hms, -⟩ | ⟨hne, -⟩ | ⟨hlt, -⟩ := hcases
      · exact hms
      · exact absurd rfl hne
      · cases hlt
    rw [hnone hcrc h, messagesOf]
    split
    · next ms x' hx => exact hnone rfl hx
    · rfl
  · obtain ⟨x, hx⟩ := extractFrom_congr (m := 0) {} hcrc.le (by simp) h
    have hfuel : (type :: rest ++ filler c).length = (type :: rest ++ crc).length := by
      rw [List.length_append, List.length_append, hcrc]
      rfl
    rw [messagesOf, extractMessages, hfuel, hx]

end

/-! ## What a path does by itself -/

namespace Session

variable {c : PathConf} {window : Nat} {clean : Prop} {s : Session} {l l' : Link}

/-- The act is fit for the theorems on sessions; a clean one is fit for all of them. -/
def Fit (c : PathConf) (clean : Prop) (s : Session) (a : Act) : Prop :=
  s.Alone c a ∧ (clean → a.Clean)

theorem emit_self (s : Session) : s.emit s.link = s := by
  rw [emit, Link.sentSince_of_same rfl, List.append_nil]

theorem emit_emit (h : s.link.frames <+: l.frames) (h' : l.frames <+: l'.frames) :
    (s.emit l).emit l' = s.emit l' := by
  simp only [emit, List.append_assoc, Link.sentSince_trans h h']

/-- **The path gets to this link by itself**, and is connected. -/
structure Reaches (c : PathConf) (window : Nat) (clean : Prop) (s : Session) (l : Link) : Prop where
  run : ∃ as, Run (Under (Fit c clean) (Step c window)) s as (s.emit l)
  connected : l.protocolState = .connected
  frames : s.link.frames <+: l.frames

theorem Reaches.refl (h : s.link.protocolState = .connected) :
    s.Reaches c window clean s.link :=
  ⟨⟨[], by rw [emit_self]; exact .nil s⟩, h, List.prefix_rfl⟩

theorem Reaches.trans (h : s.Reaches c window clean l)
    (h' : (s.emit l).Reaches c window clean l') : s.Reaches c window clean l' := by
  obtain ⟨as, has⟩ := h.run
  obtain ⟨bs, hbs⟩ := h'.run
  have hframes : l.frames <+: l'.frames := h'.frames
  rw [emit_emit h.frames hframes] at hbs
  exact ⟨⟨as ++ bs, has.append hbs⟩, h'.connected, h.frames.trans hframes⟩

/-- One act of the path. -/
theorem Reaches.single {a : Act} (hconn : s.link.protocolState = .connected) {op : Link.Op}
    (hl : Link.Step c s.link op l) (hfit : s.Fit c clean a)
    (hst : s.step c window a = some (s.emit l)) : s.Reaches c window clean l := by
  obtain ⟨new, hnew, -⟩ := hl.frames
  exact ⟨⟨[a], .single ⟨hfit, hst⟩⟩, hl.protocolState.trans hconn, new, hnew.symm⟩

theorem Reaches.touch (hconn : s.link.protocolState = .connected) (h : l.core = s.link.core) :
    s.Reaches c window clean l :=
  .single hconn (.touch h) (a := .touch l) ⟨trivial, fun _ => trivial⟩ (if_pos h)

end Session

namespace System

variable [Platform] {u v : System} {p : PathId} {window : Nat} {clean : Prop} {s : Session}
  {ev : Event} {ok : Effect → Prop}

/-- **An effect**: a submission is an act of the session, and the rest is nothing to it. -/
theorem reaches_effect {e : Effect} (h : EffectStep u e v) (hspares : e.Spares p)
    (hs : s.link = (u.path p).toLink) (hconn : s.link.protocolState = .connected) :
    s.Reaches (u.pathConf p) window clean (v.path p).toLink := by
  have hsame : (v.path p).toLink = s.link → s.Reaches (u.pathConf p) window clean (v.path p).toLink :=
    fun hv => hv ▸ .refl hconn
  have hother : ∀ (q : PathId) (f : Link → Link), q ≠ p →
      ((u.modifyLink q f).path p).toLink = s.link := fun q f hq => by
    rw [link_modifyLink, if_neg (Ne.symm hq), hs]
  have hown : ∀ f : Link → Link, ((u.modifyLink p f).path p).toLink = f s.link := fun f => by
    rw [link_modifyLink, if_pos rfl, hs]
  cases h with
  | @submit q msg now _ =>
    by_cases hq : q = p
    · subst hq
      have hlink : ((u.sendInfo q now msg).2.path q).toLink =
          (s.link.sendInfo (u.pathConf q) now.ms msg).2 :=
        hown fun l => (l.sendInfo (u.pathConf q) now.ms msg).2
      rw [hlink]
      exact .single hconn (.submit now.ms msg s.link) (a := .sendInfo msg now.ms)
        ⟨trivial, fun _ => trivial⟩ rfl
    · exact hsame (hother q (fun l => (l.sendInfo (u.pathConf q) now.ms msg).2) hq)
  | @touch q l hcore =>
    by_cases hq : q = p
    · subst hq
      rw [hown]
      exact .touch hconn (hs ▸ hcore)
    · exact hsame (hother q _ hq)
  | @sendSARM q now hstate =>
    by_cases hq : q = p
    · subst hq
      rw [← hs, hconn] at hstate
      rcases hstate with h | h <;> cases h
    · exact hsame (hother q _ hq)
  | receive => exact hsame (hother _ _ hspares)
  | resend => exact hsame (hother _ _ hspares)
  | sendUA => exact hsame (hother _ _ hspares)
  | answer => exact hsame (by rw [path, kept_request.path, hs, path])
  | other h => exact hsame (by rw [path, h.path, hs, path])

theorem reaches_effects (h : Effects ok u v) (hok : ∀ e, ok e → e.Spares p)
    (hs : s.link = (u.path p).toLink) (hconn : s.link.protocolState = .connected) :
    s.Reaches (u.pathConf p) window clean (v.path p).toLink ∧
      v.connection.conf = u.connection.conf ∧
      v.connection.activePath = u.connection.activePath := by
  refine h.invariant (I := fun w => s.Reaches (u.pathConf p) window clean (w.path p).toLink ∧
    w.connection.conf = u.connection.conf ∧
    w.connection.activePath = u.connection.activePath) ?_ ⟨hs ▸ .refl hconn, rfl, rfl⟩
  rintro w x e he ⟨hw, hconf, hactive⟩ hst
  have hsteady := hst.steady
  refine ⟨hw.trans ?_, hsteady.conf.trans hconf, hsteady.activePath.trans hactive⟩
  have hpath : w.pathConf p = u.pathConf p := by rw [pathConf, hconf, pathConf]
  have hnext : (s.emit (w.path p).toLink).Reaches (w.pathConf p) window clean (x.path p).toLink :=
    reaches_effect hst (hok e he) rfl hw.connected
  rwa [hpath] at hnext

/-! ## Events -/

/-- **The event disturbs the session** of this path: it brings a frame from outside, or fires a
transition. -/
def disturbs (s : System) (p : PathId) (ev : Event) : Bool :=
  (match ev with
    | .frame q _ _ => q == p
    | _ => false) || (s.fires ev).any fun f => f.1 == p

omit [Platform] in
/-- A transition of the other path. -/
theorem fire_spares {f : Option (PathId × ConnectionEvent)} {now : Instant}
    (hf : ∀ e, f ≠ some (p, e)) :
    ((u.fire now f).path p).toLink = (u.path p).toLink ∧
      (u.fire now f).connection.conf = u.connection.conf ∧
      (u.connection.activePath = some p → (u.fire now f).connection.activePath = some p) := by
  cases f with
  | none => exact ⟨rfl, rfl, id⟩
  | some qe =>
    obtain ⟨q, e⟩ := qe
    have hq : p ≠ q := fun hq => hf e (hq ▸ rfl)
    refine ⟨?_, conf_protocolStateTransition _ _, fun hactive => ?_⟩
    · simp only [fire, link_protocolStateTransition, if_neg hq]
    · cases hmap : transitionMap (u.path q).protocolState e with
      | none =>
        simp only [fire, protocolStateTransition, hmap]
        exact hactive
      | some entry =>
        have hne : ¬some p = some q := fun heq => hq (Option.some.inj heq)
        rw [fire, activePath_protocolStateTransition hmap, hactive, if_neg hne, Option.some_or,
          ite_self]

theorem fires_of_not_disturbs (hd : u.disturbs p ev = false) (e : ConnectionEvent) :
    u.fires ev ≠ some (p, e) := by
  intro hf
  have hany := (Bool.or_eq_false_iff.mp hd).2
  rw [hf] at hany
  simp at hany

/-- The watch over the acknowledgements of this path: the timer is an act of the session. -/
theorem reaches_checkTimer {now : Instant} (hd : u.disturbs p (.checkTimer p now) = false)
    (hs : s.link = (u.path p).toLink) (hconn : s.link.protocolState = .connected)
    (halone : s.Alone (u.pathConf p)
      (.checkTimer u.connection.repeatTimeout u.connection.current now.ms)) :
    s.Reaches (u.pathConf p) window clean ((u.checkTimer p now).path p).toLink ∧
      (u.checkTimer p now).connection.conf = u.connection.conf ∧
      (u.checkTimer p now).connection.activePath = u.connection.activePath := by
  have hmax := fires_of_not_disturbs hd .maxSend
  have hfree : ∀ e : Effect, e.Free → e.Spares p := by
    intro e he
    cases e <;> trivial
  have hrepeat : s.Reaches (u.pathConf p) window clean ((u.checkRepeat p now).path p).toLink ∧
      (u.checkRepeat p now).connection.conf = u.connection.conf ∧
      (u.checkRepeat p now).connection.activePath = u.connection.activePath := by
    unfold checkRepeat
    cases hto : (u.path p).timeout (u.pathConf p) u.connection.repeatTimeout u.connection.current with
    | none => exact ⟨hs ▸ .refl hconn, rfl, rfl⟩
    | maxSend => exact absurd (by simp [fires, hto]) hmax
    | resend m =>
      have hstep : s.step (u.pathConf p) window
          (.checkTimer u.connection.repeatTimeout u.connection.current now.ms) =
            some (s.emit (s.link.resend (u.pathConf p) now.ms m)) := by
        simp only [Session.step, hs, hto]
      refine ⟨?_, rfl, rfl⟩
      simp only [link_modifyLink, if_pos]
      rw [← hs]
      exact .single hconn (.resend (hs ▸ hto)) ⟨halone, fun _ => trivial⟩ hstep
  obtain ⟨hreaches, hconf, hactive⟩ := hrepeat
  have hpath : (u.checkRepeat p now).pathConf p = u.pathConf p := by
    rw [pathConf, hconf, pathConf]
  obtain ⟨hinit, hconf', hactive'⟩ := reaches_effects (s := s.emit _) (effects_checkInit (p := p)) hfree
    rfl hreaches.connected
  rw [hpath] at hinit
  exact ⟨hreaches.trans hinit, hconf'.trans hconf, hactive'.trans hactive⟩

/-- **An event that does not disturb the session** is a run of it. -/
theorem reaches_event (hst : u.step ev = some v) (hd : u.disturbs p ev = false)
    (hs : s.link = (u.path p).toLink) (hconn : s.link.protocolState = .connected)
    (halone : ∀ now, ev = .checkTimer p now → s.Alone (u.pathConf p)
      (.checkTimer u.connection.repeatTimeout u.connection.current now.ms)) :
    s.Reaches (u.pathConf p) window clean (v.path p).toLink ∧
      v.connection.conf = u.connection.conf ∧
      (u.connection.activePath = some p → v.connection.activePath = some p) := by
  by_cases htimer : ∃ now, ev = .checkTimer p now
  · obtain ⟨now, rfl⟩ := htimer
    obtain ⟨-, hrun⟩ := run_of_step hst
    obtain rfl := Except.ok.inj hrun
    obtain ⟨hreaches, hconf, hactive⟩ := reaches_checkTimer hd hs hconn (halone now rfl)
    exact ⟨hreaches, hconf, fun h => hactive.trans h⟩
  · have hframe : ∀ data now, ev ≠ .frame p data now := by
      rintro data now rfl
      simp [disturbs] at hd
    have hspares : ∀ e : Effect, e.Allowed u ev → e.Spares p := fun e he =>
      spares_of_allowed hframe (fun now heq => htimer ⟨now, heq⟩) he
    obtain ⟨now, hpre, hpost⟩ := staged_of_step hst
    generalize u.before ev = x at hpre hpost
    obtain ⟨hx, hxconf, hxactive⟩ := reaches_effects hpre hspares hs hconn
    have hfire : ((x.fire now (u.fires ev)).path p).toLink = (x.path p).toLink ∧
        (x.fire now (u.fires ev)).connection.conf = x.connection.conf ∧
        (x.connection.activePath = some p →
          (x.fire now (u.fires ev)).connection.activePath = some p) :=
      fire_spares (fires_of_not_disturbs hd)
    obtain ⟨hfire, hfconf, hfactive⟩ := hfire
    have hconf : (x.fire now (u.fires ev)).connection.conf = u.connection.conf := hfconf.trans hxconf
    have hpath : (x.fire now (u.fires ev)).pathConf p = u.pathConf p := by
      rw [pathConf, hconf, pathConf]
    rw [← hfire] at hx
    obtain ⟨hv, hvconf, hvactive⟩ := reaches_effects (s := s.emit _) hpost hspares rfl hx.connected
    rw [hpath] at hv
    exact ⟨hx.trans hv, hvconf.trans hconf,
      fun h => hvactive.trans (hfactive (hxactive.trans h))⟩

end System

/-! ## Lines -/

/-- The act is the station's, or the channels'. -/
def Session.Act.Outside : Session.Act → Bool
  | .submit _ | .send | .repeat _ _ | .answer | .lose _ _ => true
  | _ => false

/-- Such an act does not depend on the path. -/
theorem Session.step_outside {c d : PathConf} {window : Nat} {s s₀ : Session} {a : Session.Act}
    (ha : a.Outside = true) (hstation : s.station = s₀.station)
    (htoStation : s.toStation = s₀.toStation) (htoPath : s.toPath = s₀.toPath) :
    s.step c window a = (s₀.step d window a).map fun t =>
      { s with station := t.station, toStation := t.toStation, toPath := t.toPath } := by
  cases a with
  | submit msg => simp only [step, Option.map_some, hstation, htoStation, htoPath]
  | send =>
    simp only [step, hstation, htoPath]
    split_ifs <;> simp [← htoStation]
  | «repeat» j p =>
    simp only [step, hstation, htoPath]
    split_ifs <;> simp [← hstation, ← htoStation]
  | answer =>
    simp only [step, hstation, htoStation, htoPath]
    split <;> rfl
  | lose toStation toPath =>
    simp only [step, htoStation, htoPath]
    split_ifs <;> simp [← hstation]
  | _ => cases ha

/-- **A line**: a connection of the plugin, the messages that one path has handed on, and at the other
end of this path the station, with the frames under way. -/
structure Line where
  system : System
  messages : List (List UInt8) := []
  station : Station := {}
  toStation : List (List UInt8) := []
  toPath : List (List UInt8) := []

namespace Line

/-- **What can happen** on a line. -/
inductive Act
  /-- Anything the plugin does, but for frames on the path. -/
  | event (ev : Event)
  /-- The path takes the next frame; its address and its CRC are on the wire, too. -/
  | deliver (address crc₁ crc₂ : UInt8) (now : Instant)
  /-- The station and the channels. -/
  | outside (a : Session.Act)

/-- The session of the path. -/
def session (p : PathId) (x : Line) : Session where
  link := (x.system.path p).toLink
  station := x.station
  toStation := x.toStation
  toPath := x.toPath

/-- The plugin is in this state; what it has sent on the path is under way. -/
def emit (p : PathId) (t : System) (x : Line) : Line :=
  { x with
    system := t
    toStation := x.toStation ++ (x.system.path p).toLink.sentSince (t.path p).toLink }

variable [Platform]

/-- **One step**, while nothing disturbs the session and the path reads what it is sent. -/
def step (p : PathId) (window : Nat) (x : Line) : Act → Option Line
  | .event ev => if x.system.disturbs p ev then none else (x.system.step ev).map fun t => x.emit p t
  | .deliver address crc₁ crc₂ now =>
    match x.toPath with
    | (type :: payload) :: rest =>
      let data := address :: type :: (payload ++ [crc₁, crc₂])
      if x.system.configured p ∧ (x.system.frameKind p data = some (.info type) ∨
          x.system.frameKind p data = some (.rr type)) then
        match x.system.analyzeFrame p data now with
        | .ok (messages, t) => some { x.emit p t with messages := x.messages ++ messages, toPath := rest }
        | .error _ => none
      else none
    | _ => none
  | .outside a =>
    if a.Outside then
      ((x.session p).step (x.system.pathConf p) window a).map fun s =>
        { x with station := s.station, toStation := s.toStation, toPath := s.toPath }
    else none

/-- The steps as a relation. -/
abbrev Step (p : PathId) (window : Nat) : Line → Act → Line → Prop := Det (step p window)

omit [Platform] in
/-- The retransmission finds one message; a clean act loses and repeats nothing. -/
def Fit (p : PathId) (clean : Prop) (x : Line) : Act → Prop
  | .event (.checkTimer q now) => q = p → (x.session p).Alone (x.system.pathConf p)
      (.checkTimer x.system.connection.repeatTimeout x.system.connection.current now.ms)
  | .outside a => clean → a.Clean
  | _ => True

variable {p : PathId} {window : Nat} {full : Prop} {x y : Line} {s : Session} {a : Act}

/-- **The line shows this session.**  If the path is the active one, it has handed on the messages of
the payloads of the session. -/
structure Shows (p : PathId) (full : Prop) (x : Line) (s : Session) : Prop where
  link : s.link = (x.system.path p).toLink
  station : s.station = x.station
  toStation : s.toStation = x.toStation
  toPath : s.toPath = x.toPath
  connected : s.link.protocolState = .connected
  extracts : full → x.system.connection.activePath = some p ∧
    x.messages = (s.handed.map (messagesOf (x.system.pathConf p))).flatten

/-- A step of the line is a run of the session. -/
def Shows.Follows (p : PathId) (window : Nat) (full : Prop) (x y : Line) (s : Session) : Prop :=
  ∃ as s', Run (Under (Session.Fit (x.system.pathConf p) full)
      (Session.Step (x.system.pathConf p) window)) s as s' ∧
    y.Shows p full s' ∧ y.system.connection.conf = x.system.connection.conf

namespace Shows

theorem step_event (h : x.Shows p full s) {ev : Event} (hfit : x.Fit p full (.event ev))
    (hst : x.step p window (.event ev) = some y) : Follows p window full x y s := by
  simp only [Line.step] at hst
  split_ifs at hst with hd
  obtain ⟨t, ht, rfl⟩ := Option.map_eq_some_iff.mp hst
  rw [Bool.not_eq_true] at hd
  have halone : ∀ now, ev = .checkTimer p now → s.Alone (x.system.pathConf p)
      (.checkTimer x.system.connection.repeatTimeout x.system.connection.current now.ms) := by
    rintro now rfl
    have h' := hfit rfl
    simp only [Session.Alone, session, ← h.link] at h' ⊢
    exact h'
  obtain ⟨⟨⟨as, has⟩, hconn, -⟩, hconf, hactive⟩ := System.reaches_event ht hd h.link h.connected halone
  refine ⟨as, _, has, ⟨rfl, h.station, ?_, h.toPath, hconn, fun hfull => ?_⟩, hconf⟩
  · simp only [Session.emit, emit, h.toStation, h.link]
  · obtain ⟨hp, hmessages⟩ := h.extracts hfull
    refine ⟨hactive hp, ?_⟩
    rw [System.pathConf, show (x.emit p t).system.connection.conf = _ from hconf]
    exact hmessages

theorem step_outside (h : x.Shows p full s) {a : Session.Act} (hfit : x.Fit p full (.outside a))
    (hst : x.step p window (.outside a) = some y) : Follows p window full x y s := by
  simp only [Line.step] at hst
  split_ifs at hst with ha
  obtain ⟨t, ht, rfl⟩ := Option.map_eq_some_iff.mp hst
  have hstep : s.step (x.system.pathConf p) window a = some
      { s with station := t.station, toStation := t.toStation, toPath := t.toPath } := by
    have hsession : s.step (x.system.pathConf p) window a = ((x.session p).step (x.system.pathConf p)
        window a).map _ := Session.step_outside ha h.station h.toStation h.toPath
    rw [hsession, ht]
    rfl
  have halone : s.Alone (x.system.pathConf p) a := by
    cases a <;> trivial
  exact ⟨[a], _, .single ⟨⟨halone, hfit⟩, hstep⟩,
    ⟨h.link, rfl, rfl, rfl, h.connected, h.extracts⟩, rfl⟩

/-- What the active path extracts. -/
theorem extracted_eq {u v : System} {type address : UInt8} {payload crc data : List UInt8}
    {extracted : List (List UInt8)} {now : Instant} (hp : u.connection.activePath = some p)
    (hcrc : crc.length = 2) (hdata : data = address :: type :: (payload ++ crc))
    (hu : u.extract p data now = .ok (extracted, v)) :
    messagesOf (u.pathConf p) payload = extracted := by
  have hextracts : u.canPathExtractMessage p = true := by simp [System.canPathExtractMessage, hp]
  have hlength : (data.length : Int) - 4 = payload.length := by
    rw [hdata]
    simp only [List.length_cons, List.length_append, hcrc]
    omega
  unfold System.extract at hu
  rw [if_pos hextracts, hlength, hdata] at hu
  obtain ⟨⟨messages, l⟩, hl, hu⟩ := bind_eq_ok.mp hu
  cases hu
  exact messagesOf_eq hcrc hl

/-- What an information frame does. -/
theorem deliver_info (h : x.Shows p full s) (crc : List UInt8) {type : UInt8}
    {payload data : List UInt8}
    {rest messages : List (List UInt8)} {now : Instant} {address : UInt8} {t : System}
    (hcrc : crc.length = 2) (hdata : data = address :: type :: (payload ++ crc))
    (hpath : x.toPath = (type :: payload) :: rest)
    (hk : x.system.frameKind p data = some (.info type)) (heven : type &&& 0x01 = 0)
    (hframe : x.system.analyzeFrame p data now = .ok (messages, t)) :
    Follows p window full x
      { x.emit p t with messages := x.messages ++ messages, toPath := rest } s := by
  have hcases := System.analyzeFrame_cases hframe
  rw [hk] at hcases
  obtain ⟨htype, -, hinfo⟩ := hcases
  obtain ⟨hout, -, -⟩ | ⟨-, u, extracted, ok, l, hu, hl, rfl, rfl⟩ :=
    System.receivedINFO_cases htype hinfo
  · have hconn := h.connected
    rw [h.link, hout] at hconn
    cases hconn
  obtain ⟨l₁, hcore, rfl⟩ := System.extract_cases hu
  have hcore' : l₁.core = s.link.core := hcore.trans (congrArg Link.core h.link.symm)
  have hrr : l₁.sendRR (x.system.pathConf p) now.ms (pfField type) (nsField type) (nrField type) =
      .ok (ok, l) := by
    simp only [System.link_modifyLink, if_pos] at hl
    exact hl
  have hsilent : s.link.sentSince l₁ = [] :=
    Link.sentSince_of_same (congrArg Link.Core.frames hcore')
  have hsince : l₁.sentSince l = (x.system.path p).toLink.sentSince l := by
    have hframes : l₁.frames = (x.system.path p).frames := congrArg Link.Core.frames hcore
    rw [Link.sentSince, hframes, Link.sentSince]
  have htouch : s.step (x.system.pathConf p) window (.touch l₁) = some (s.emit l₁) := if_pos hcore'
  have hreceive : (s.emit l₁).step (x.system.pathConf p) window (.receive now.ms) = some _ :=
    Session.receive_info (h.toPath.trans hpath) heven hrr
  refine ⟨[.touch l₁, .receive now.ms], _,
    .cons ⟨⟨trivial, fun _ => trivial⟩, htouch⟩ (.single ⟨⟨trivial, fun _ => trivial⟩, hreceive⟩),
    ⟨?_, h.station, ?_, rfl, ?_, fun hfull => ?_⟩, rfl⟩
  · simp [Session.emit, emit]
  · simp [Session.emit, emit, hsilent, hsince, h.toStation]
  · exact (Link.Step.inform hrr).protocolState.trans
      ((congrArg Link.Core.protocolState hcore').trans h.connected)
  · obtain ⟨hp, hmessages⟩ := h.extracts hfull
    have hextracted : messagesOf (x.system.pathConf p) payload = extracted := extracted_eq hp hcrc hdata hu
    refine ⟨hp, ?_⟩
    change x.messages ++ (if ok then extracted else []) =
      ((if ok then s.handed ++ [payload] else s.handed).map
        (messagesOf (x.system.pathConf p))).flatten
    rw [hmessages]
    cases ok with
    | true => simp [hextracted]
    | false => simp

/-- What RR does. -/
theorem deliver_rr (h : x.Shows p full s) {type : UInt8} {payload data : List UInt8}
    {rest messages : List (List UInt8)} {now : Instant} {t : System}
    (hpath : x.toPath = (type :: payload) :: rest)
    (hk : x.system.frameKind p data = some (.rr type)) (hodd : type &&& 0x01 ≠ 0)
    (hframe : x.system.analyzeFrame p data now = .ok (messages, t)) :
    Follows p window full x
      { x.emit p t with messages := x.messages ++ messages, toPath := rest } s := by
  have hcases := System.analyzeFrame_cases hframe
  rw [hk] at hcases
  obtain ⟨-, -, rfl, hreceived⟩ := hcases
  unfold System.receivedRR at hreceived
  obtain ⟨⟨ok, l⟩, hl, hreceived⟩ := bind_eq_ok.mp hreceived
  obtain rfl := Except.ok.inj hreceived
  have hrr : s.link.receivedRR (x.system.pathConf p) now.ms (nrField type) (pfField type) =
      .ok (ok, l) := h.link.symm ▸ hl
  have hreceive : s.step (x.system.pathConf p) window (.receive now.ms) = some _ :=
    Session.receive_rr (h.toPath.trans hpath) hodd hrr
  refine ⟨[.receive now.ms], _, .single ⟨⟨trivial, fun _ => trivial⟩, hreceive⟩,
    ⟨?_, h.station, ?_, rfl, ?_, fun hfull => ?_⟩, rfl⟩
  · simp [Session.emit, emit]
  · simp [Session.emit, emit, h.toStation, h.link]
  · exact (Link.Step.acknowledge hrr).protocolState.trans h.connected
  · obtain ⟨hp, hmessages⟩ := h.extracts hfull
    refine ⟨hp, ?_⟩
    change x.messages ++ [] = (s.handed.map (messagesOf (x.system.pathConf p))).flatten
    rw [hmessages, List.append_nil]

/-- The type byte says which of the two a frame is. -/
theorem parity_of_kind {u : System} {address type : UInt8} {more : List UInt8} :
    (u.frameKind p (address :: type :: more) = some (.info type) → type &&& 0x01 = 0) ∧
      (u.frameKind p (address :: type :: more) = some (.rr type) → type &&& 0x01 ≠ 0) := by
  unfold System.frameKind
  simp only
  split_ifs <;> simp_all

theorem step_deliver (h : x.Shows p full s) {address crc₁ crc₂ : UInt8} {now : Instant}
    (hst : x.step p window (.deliver address crc₁ crc₂ now) = some y) :
    Follows p window full x y s := by
  simp only [Line.step] at hst
  split at hst
  · next type payload rest hpath =>
    split_ifs at hst with hcond
    split at hst
    · next messages t hframe =>
      obtain rfl := Option.some.inj hst
      rcases hcond.2 with hk | hk
      · exact h.deliver_info [crc₁, crc₂] rfl rfl hpath hk (parity_of_kind.1 hk) hframe
      · exact h.deliver_rr hpath hk (parity_of_kind.2 hk) hframe
    · cases hst
  · cases hst

/-- **The step lemma.** -/
theorem step (h : x.Shows p full s) (hfit : x.Fit p full a) (hst : x.step p window a = some y) :
    Follows p window full x y s := by
  cases a with
  | event ev => exact h.step_event hfit hst
  | deliver address crc₁ crc₂ now => exact h.step_deliver hst
  | outside a => exact h.step_outside hfit hst

/-- **The run lemma**: a run of the line is a run of the session. -/
theorem run {as : List Act} (h : x.Shows p full s)
    (hrun : Run (Under (Fit p full) (Step p window)) x as y) : Follows p window full x y s := by
  refine hrun.invariant (I := fun y => Follows p window full x y s) ?_
    ⟨[], s, .nil s, h, rfl⟩
  rintro y a z ⟨as, s', hs', hy, hconf⟩ ⟨hfit, hst⟩
  obtain ⟨bs, s'', hs'', hz, hconf'⟩ := hy.step hfit hst
  have hpath : y.system.pathConf p = x.system.pathConf p := by
    rw [System.pathConf, hconf, System.pathConf]
  rw [hpath] at hs''
  exact ⟨as ++ bs, s'', hs'.append hs'', hz, hconf'.trans hconf⟩

end Shows

/-! ## What holds of every line -/

/-- The plugin's part of a step is an event of the plugin. -/
theorem step_system (hst : x.step p window a = some y) :
    y.system = x.system ∨ ∃ ev, x.system.step ev = some y.system := by
  cases a with
  | event ev =>
    simp only [step] at hst
    split_ifs at hst
    obtain ⟨t, ht, rfl⟩ := Option.map_eq_some_iff.mp hst
    exact Or.inr ⟨ev, ht⟩
  | deliver address crc₁ crc₂ now =>
    simp only [step] at hst
    split at hst
    · next type payload rest hpath =>
      split_ifs at hst with hcond
      split at hst
      · next messages t hframe =>
        obtain rfl := Option.some.inj hst
        refine Or.inr ⟨.frame p (address :: type :: (payload ++ [crc₁, crc₂])) now, ?_⟩
        have henabled : x.system.enabled
            (.frame p (address :: type :: (payload ++ [crc₁, crc₂])) now) = true := hcond.1
        rw [System.step, if_pos henabled, System.run, hframe]
        rfl
      · cases hst
    · cases hst
  | outside a =>
    simp only [step] at hst
    split_ifs at hst
    obtain ⟨t, -, rfl⟩ := Option.map_eq_some_iff.mp hst
    exact Or.inl rfl

/-- The plugin's part of a run is a run of the plugin. -/
theorem run_system {as : List Act} (hrun : Run (Step p window) x as y) :
    ∃ evs, Run System.Step x.system evs y.system := by
  refine hrun.invariant (I := fun y => ∃ evs, Run System.Step x.system evs y.system) ?_ ⟨[], .nil _⟩
  rintro y a z ⟨evs, hevs⟩ hst
  obtain hsame | ⟨ev, hev⟩ := step_system hst
  · exact ⟨evs, hsame ▸ hevs⟩
  · exact ⟨evs ++ [ev], hevs.snoc hev⟩

/-- A line begins with a session. -/
theorem shows_session (hs : (x.session p).Fresh)
    (hfull : full → x.system.connection.activePath = some p ∧ x.messages = []) :
    x.Shows p full (x.session p) :=
  ⟨rfl, rfl, rfl, rfl, hs.connected, fun h => ⟨(hfull h).1, (hfull h).2.trans (by simp [session])⟩⟩

/-- **Delivery by the plugin**: whatever the plugin does — commands, interrogations, timers, the other
path and its failover — while the connection of the path lasts, the station accepts what the plugin
submits on it, in its order, each once. -/
theorem accepted_of_run (hratio : (x.system.pathConf p).anticipationRatio ∈ Set.Icc 1 7)
    (hs : (x.session p).Fresh) {as : List Act}
    (hrun : Run (Under (Fit p False) (Step p window)) x as y) :
    (∃ evs, Run System.Step x.system evs y.system) ∧
      (y.session p).Delivered (x.system.path p).taken.length := by
  have hshows : x.Shows p False (x.session p) := shows_session hs False.elim
  obtain ⟨bs, s, hbs, hy, -⟩ := hshows.run hrun
  have hsession : Run (Under (Session.Alone (x.system.pathConf p))
      (Session.Step (x.system.pathConf p) window)) (x.session p) bs s :=
    hbs.mono fun h => ⟨h.1.1, h.2⟩
  have hdelivered := Session.delivered_of_run hratio hs hsession
  refine ⟨run_system hrun.of_under, ?_⟩
  have hlink : (y.session p).link = s.link := hy.link.symm
  have hstation : (y.session p).station = s.station := hy.station.symm
  exact
    { accepted := by rw [hlink, hstation]; exact hdelivered.accepted
      kept := by rw [hlink, hstation]; exact hdelivered.kept
      waiting := by rw [hlink, hstation]; exact hdelivered.waiting }

/-- **Reception by the plugin**: without loss or repetition the active path hands on the messages of
what the station sends, in their order, each once, but for what is still under way. -/
theorem received_of_run (hratio : (x.system.pathConf p).anticipationRatio ∈ Set.Icc 1 7)
    (hwindow : window < 8) (hs : (x.session p).Fresh)
    (hactive : x.system.connection.activePath = some p) (hmessages : x.messages = []) {as : List Act}
    (hrun : Run (Under (Fit p True) (Step p window)) x as y) :
    y.messages ++ ((y.toPath.filter isInfo).map fun bytes =>
        messagesOf (x.system.pathConf p) bytes.tail).flatten =
      ((y.station.submitted.take y.station.next).map (messagesOf (x.system.pathConf p))).flatten := by
  have hshows : x.Shows p True (x.session p) := shows_session hs fun _ => ⟨hactive, hmessages⟩
  obtain ⟨bs, s, hbs, hy, hconf⟩ := hshows.run hrun
  have hsession : Run (Under (fun s a => s.Alone (x.system.pathConf p) a ∧ a.Clean)
      (Session.Step (x.system.pathConf p) window)) (x.session p) bs s :=
    hbs.mono fun h => ⟨⟨h.1.1, h.1.2 trivial⟩, h.2⟩
  have hhanded := Session.handed_of_run hratio hwindow hs hsession
  obtain ⟨-, hextracted⟩ := hy.extracts trivial
  have hpath : y.system.pathConf p = x.system.pathConf p := by
    rw [System.pathConf, hconf, System.pathConf]
  rw [hpath] at hextracted
  rw [hextracted, ← hy.station, ← hhanded, hy.toPath, List.map_append, List.flatten_append,
    List.map_map]
  rfl

end Line

/-! ## A plugin and its station -/

namespace Line

instance (p : PathId) (clean : Prop) [Decidable clean] (x : Line) (a : Act) :
    Decidable (x.Fit p clean a) := by
  unfold Fit
  split <;> infer_instance

open Sample

/-- Path A is connected and active. -/
def opened : Line where
  system :=
    { hnz := { conf := .sample, remoteAddress := 1, connStatus := .started }
      connection :=
        { conf := .sample
          path := fun p =>
            if p = .A then { protocolState := .connected, connectionState := .active, tcpConnected := true }
            else {}
          activePath := some .A
          isRunning := true
          repeatTimeout := 3000 } }

theorem fresh_opened : (opened.session .A).Fresh := by
  constructor <;> rfl

/-- A command is sent and acknowledged, while path B connects; a change of a TS is reported. -/
def conversing : List Act :=
  [.event (.operation "HNZCommand" [("co_type", "TC"), ("co_addr", "31"), ("co_value", "1")] 0),
    .event (.connect .B 0), .event (.protocol .B .receivedSarm 0), .outside .answer,
    .deliver 6 0 0 0, .outside (.submit [0x0B, 0x33, 0x28, 0x36, 0xF2]), .outside .send,
    .deliver 4 0 0 0]

set_option maxRecDepth 8000 in
/-- The station has accepted the command. -/
theorem accepted_conversing :
    ∃ y, exec (step .A 7) opened conversing = some y ∧ y.station.accepted = [[0x19, 3, 0x28]] ∧
      (y.session .A).Delivered 0 := by
  let y : Line := (exec (step .A 7) opened conversing).get rfl
  have hrun : Run (Under (Fit .A False) (Step .A 7)) opened conversing y := run_under_iff.mpr rfl
  exact ⟨y, rfl, rfl, (accepted_of_run (by decide) fresh_opened hrun).2⟩

set_option maxRecDepth 8000 in
/-- And the plugin has the message of the station. -/
theorem received_conversing :
    ∃ y, exec (step .A 7) opened conversing = some y ∧
      y.messages ++ ((y.toPath.filter isInfo).map fun bytes =>
          messagesOf (opened.system.pathConf .A) bytes.tail).flatten =
        ((y.station.submitted.take y.station.next).map
          (messagesOf (opened.system.pathConf .A))).flatten ∧
      y.messages = [[0x0B, 0x33, 0x28, 0x36, 0xF2]] := by
  let y : Line := (exec (step .A 7) opened conversing).get rfl
  have hrun : Run (Under (Fit .A True) (Step .A 7)) opened conversing y := run_under_iff.mpr rfl
  exact ⟨y, rfl, received_of_run (by decide) (by decide) fresh_opened rfl rfl hrun, rfl⟩

end Line

end Hnz
