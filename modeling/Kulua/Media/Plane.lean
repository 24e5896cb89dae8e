import Kulua.Media.Reader
import Kulua.Media.Soundness
import Kulua.UdpServer

/-! The media ports of the phone. Anyone may register an endpoint there; what the encoders of a
client send goes from there to the endpoint, and one media reader of a PC takes what reaches it.
The counters of the phone count without end here, and on the wire they are `int`s. -/

namespace Kulua.Media
open Foundation MediaMessage

inductive MediaStream where
  | video
  | audio
  deriving DecidableEq

/-- The media side of `ClientConnection`. -/
structure MediaClient where
  videoEndpoint : Option InetSocketAddress
  audioEndpoint : Option InetSocketAddress
  mediaMsgId : Nat
  mediaSeq : Nat

namespace MediaClient

def new : MediaClient := ⟨none, none, 1, 1⟩

def endpoint (self : MediaClient) : MediaStream → Option InetSocketAddress
  | .video => self.videoEndpoint
  | .audio => self.audioEndpoint

def registerMediaEndpoint (self : MediaClient) (src : InetSocketAddress) :
    MediaStream → MediaClient
  | .video => { self with videoEndpoint := some src }
  | .audio => { self with audioEndpoint := some src }

end MediaClient

theorem Holding.mono {ms ms' : List MediaMessage} {r : MediaReassembler} (h : Holding ms r)
    (hsub : ∀ m ∈ ms, m ∈ ms') : Holding ms' r := by
  intro k part hpart
  obtain ⟨m, hm, hheld⟩ := h k part hpart
  exact ⟨m, hsub m hm, hheld⟩

/-- A message as it was sent, with the numbers of its client, its id and its sequence number. -/
structure Sent where
  stream : MediaStream
  client : Nat
  msgId : Nat
  seq : Nat
  pts : BitVec 64
  revision : BitVec 64
  flags : U32
  data : Bytes
  isArray : data.length < 2 ^ 31

def Sent.message (self : Sent) : MediaMessage where
  producer := .sendMedia
  clientId := BitVec.ofNat 32 self.client
  msgId := BitVec.ofNat 32 self.msgId
  seq := BitVec.ofNat 32 self.seq
  pts := self.pts
  revision := self.revision
  flags := self.flags
  data := self.data
  isArray := self.isArray

/-- The messages of one client on one stream. -/
def messages (client : Nat) (stream : MediaStream) (sent : List Sent) : List MediaMessage :=
  (sent.filter fun m => m.client = client ∧ m.stream = stream).map Sent.message

/-- The phone, the datagrams that it has sent, each with its port and where it goes, and the
reader. `drawn` are the sequence numbers that an encoder has taken and not yet sent. -/
structure MediaPlane where
  nextClientId : Nat
  clients : Nat → MediaClient
  clientById : U32 → Option Nat
  drawn : List (Nat × Nat)
  sent : List Sent
  inFlight : List (MediaStream × InetSocketAddress × Bytes)
  reader : Option MediaReader
  events : List AssembledMedia

namespace MediaPlane

inductive Action where
  | acceptSrc
  | removeClient (client : Nat)
  /-- One turn of `mediaLoop`. -/
  | receive (stream : MediaStream) (src : InetSocketAddress) (buf : Bytes)
  | nextMediaSeq (client : Nat)
  | sendMedia (client : Nat) (stream : MediaStream) (seq : Nat) (pts revision : BitVec 64)
      (flags : U32) (data : Bytes) (isArray : data.length < 2 ^ 31)
  | helloAck
  | deliver (k now : Nat)
  | sweep (now timeout : Nat)

def init (now : Nat) : MediaPlane where
  nextClientId := 1
  clients := fun _ => .new
  clientById := fun _ => none
  drawn := []
  sent := []
  inFlight := []
  reader := some (.init now)
  events := []

/-- The reader takes a datagram. -/
def recv (self : MediaPlane) (now : Nat) (buf : Bytes) : MediaPlane :=
  match self.reader with
  | none => self
  | some reader =>
    match reader.recv now buf with
    | none => { self with reader := none }
    | some (reader, out) =>
      { self with reader := some reader, events := self.events ++ out.toList }

/-- `client` is the session of the reader, `pc` the address of its socket. -/
def step (client : Nat) (stream : MediaStream) (pc : InetSocketAddress) (self : MediaPlane) :
    Action → MediaPlane
  | .acceptSrc =>
    { self with
      nextClientId := self.nextClientId + 1
      clients := Function.update self.clients self.nextClientId .new
      clientById :=
        Function.update self.clientById (.ofNat 32 self.nextClientId) (some self.nextClientId) }
  | .removeClient c =>
    { self with clientById := Function.update self.clientById (BitVec.ofNat 32 c) none }
  | .receive port src buf =>
    let clientId := parseClientId buf buf.length
    if clientId.slt 0 then self
    else
      match self.clientById clientId with
      | none => self
      | some c =>
        { self with
          clients :=
            Function.update self.clients c ((self.clients c).registerMediaEndpoint src port) }
  | .nextMediaSeq c =>
    if c < self.nextClientId then
      { self with
        clients := Function.update self.clients c
          { self.clients c with mediaSeq := (self.clients c).mediaSeq + 1 }
        drawn := (c, (self.clients c).mediaSeq) :: self.drawn }
    else self
  | .sendMedia c port seq pts revision flags data isArray =>
    if (c, seq) ∈ self.drawn then
      match (self.clients c).endpoint port with
      | none => { self with drawn := self.drawn.erase (c, seq) }
      | some dst =>
        let m : Sent :=
          ⟨port, c, (self.clients c).mediaMsgId, seq, pts, revision, flags, data, isArray⟩
        { self with
          clients := Function.update self.clients c
            { self.clients c with mediaMsgId := (self.clients c).mediaMsgId + 1 }
          drawn := self.drawn.erase (c, seq)
          sent := self.sent ++ [m]
          inFlight := self.inFlight ++ m.message.datagrams.map fun buf => (port, dst, buf) }
    else self
  | .helloAck =>
    { self with reader := ReaderInput.step self.reader (.helloAck (BitVec.ofNat 32 client)) }
  | .deliver k now =>
    match self.inFlight[k]? with
    | some (port, dst, buf) => if port = stream ∧ dst = pc then self.recv now buf else self
    | none => self
  | .sweep now timeout => { self with reader := ReaderInput.step self.reader (.sweep now timeout) }

/-- The message has no more fragments than the header can count. -/
def Action.Short : Action → Prop
  | .sendMedia _ _ _ _ _ _ data _ => (sendMediaTotal data).toInt.toNat ≤ 65534
  | _ => True

instance : (a : Action) → Decidable a.Short
  | .sendMedia .. => inferInstanceAs (Decidable (_ ≤ _))
  | .acceptSrc | .removeClient _ | .receive .. | .nextMediaSeq _ | .helloAck | .deliver .. |
    .sweep .. => .isTrue trivial

/-- No counter has come round. -/
def Few (client : Nat) (self : MediaPlane) (a : Action) : Prop :=
  self.nextClientId ≤ 2 ^ 32 ∧ (self.clients client).mediaMsgId ≤ 2 ^ 32 ∧
    (self.clients client).mediaSeq ≤ 2 ^ 32 ∧ a.Short

instance (client : Nat) (self : MediaPlane) (a : Action) : Decidable (self.Few client a) :=
  inferInstanceAs (Decidable (_ ∧ _ ∧ _ ∧ _))

/-- What the counters say of the messages sent. -/
structure Counted (s : MediaPlane) : Prop where
  clients : ∀ m ∈ s.sent, m.client < s.nextClientId
  msgIds : ∀ m ∈ s.sent, m.msgId < (s.clients m.client).mediaMsgId
  seqs : ∀ m ∈ s.sent, 0 < m.seq ∧ m.seq < (s.clients m.client).mediaSeq
  positive : ∀ c, 0 < (s.clients c).mediaSeq
  distinct : s.sent.Pairwise fun m m' =>
    m.client = m'.client → m.msgId ≠ m'.msgId ∧ m.seq ≠ m'.seq
  nodup : s.drawn.Nodup
  unused : ∀ p ∈ s.drawn, p.1 < s.nextClientId ∧ 0 < p.2 ∧
    p.2 < (s.clients p.1).mediaSeq ∧ ∀ m ∈ s.sent, (m.client, m.seq) ≠ p
  short : ∀ m ∈ s.sent, m.message.datagrams.length ≤ 65534
  origin : ∀ d ∈ s.inFlight, ∃ m ∈ s.sent, m.stream = d.1 ∧ d.2.2 ∈ m.message.datagrams

variable {client : Nat} {stream : MediaStream} {pc : InetSocketAddress} {self : MediaPlane}

theorem counted_init (now : Nat) : (init now).Counted := by
  constructor <;> simp [init, MediaClient.new]

theorem Counted.reader (h : self.Counted) (reader : Option MediaReader)
    (events : List AssembledMedia) :
    Counted { self with reader := reader, events := events } := by
  exact { h with }

theorem length_datagrams_message (m : Sent) :
    m.message.datagrams.length = (sendMediaTotal m.data).toInt.toNat := by
  simp [Sent.message, datagrams, sendMedia]

/-- What a change of one client leaves as it is. -/
theorem update_eq {β : Type} {f : MediaClient → β} {clients : Nat → MediaClient} {c : Nat}
    {new : MediaClient} (h : f new = f (clients c)) (c' : Nat) :
    f (Function.update clients c new c') = f (clients c') := by
  rw [Function.update_apply]
  split
  · next heq => rw [h, heq]
  · rfl

/-- What a change of one client does not lessen. -/
theorem le_update {f : MediaClient → Nat} {clients : Nat → MediaClient} {c : Nat}
    {new : MediaClient} (h : f (clients c) ≤ f new) (c' : Nat) :
    f (clients c') ≤ f (Function.update clients c new c') := by
  rw [Function.update_apply]
  split
  · next heq => rwa [heq]
  · exact le_rfl

theorem Counted.step (h : self.Counted) {a : Action} (hshort : a.Short) :
    (self.step client stream pc a).Counted := by
  cases a with
  | acceptSrc =>
    have hold : ∀ c < self.nextClientId,
        Function.update self.clients self.nextClientId MediaClient.new c = self.clients c :=
      fun c hc => Function.update_of_ne (Nat.ne_of_lt hc) ..
    exact
      { h with
        clients := fun m hm => Nat.lt_succ_of_lt (h.clients m hm)
        msgIds := fun m hm => by
          simp only [MediaPlane.step, hold m.client (h.clients m hm)]
          exact h.msgIds m hm
        seqs := fun m hm => by
          simp only [MediaPlane.step, hold m.client (h.clients m hm)]
          exact h.seqs m hm
        positive := fun c => by
          simp only [MediaPlane.step, Function.update_apply]
          split
          · exact Nat.one_pos
          · exact h.positive c
        unused := fun p hp => by
          obtain ⟨hc, hpos, hlt, hfresh⟩ := h.unused p hp
          simp only [MediaPlane.step, hold p.1 hc]
          exact ⟨Nat.lt_succ_of_lt hc, hpos, hlt, hfresh⟩ }
  | removeClient c => exact { h with }
  | receive port src buf =>
    simp only [MediaPlane.step]
    split
    · exact h
    · split
      · exact h
      · next c _ =>
        let new := (self.clients c).registerMediaEndpoint src port
        have hmsgId : ∀ c', (Function.update self.clients c new c').mediaMsgId =
            (self.clients c').mediaMsgId :=
          update_eq (f := MediaClient.mediaMsgId) (by cases port <;> rfl)
        have hseq : ∀ c', (Function.update self.clients c new c').mediaSeq =
            (self.clients c').mediaSeq :=
          update_eq (f := MediaClient.mediaSeq) (by cases port <;> rfl)
        exact
          { h with
            msgIds := fun m hm => (h.msgIds m hm).trans_eq (hmsgId _).symm
            seqs := fun m hm => ⟨(h.seqs m hm).1, (h.seqs m hm).2.trans_eq (hseq _).symm⟩
            positive := fun c' => (h.positive c').trans_eq (hseq _).symm
            unused := fun p hp => by
              obtain ⟨hc', hpos, hlt, hfresh⟩ := h.unused p hp
              exact ⟨hc', hpos, hlt.trans_eq (hseq _).symm, hfresh⟩ }
  | nextMediaSeq c =>
    simp only [MediaPlane.step]
    split
    · next hc =>
      let new := { self.clients c with mediaSeq := (self.clients c).mediaSeq + 1 }
      have hmsgId : ∀ c', (Function.update self.clients c new c').mediaMsgId =
          (self.clients c').mediaMsgId := update_eq (f := MediaClient.mediaMsgId) rfl
      have hseq : ∀ c', (self.clients c').mediaSeq ≤
          (Function.update self.clients c new c').mediaSeq :=
        le_update (f := MediaClient.mediaSeq) (Nat.le_succ _)
      exact
        { h with
          msgIds := fun m hm => (h.msgIds m hm).trans_eq (hmsgId _).symm
          seqs := fun m hm => ⟨(h.seqs m hm).1, (h.seqs m hm).2.trans_le (hseq _)⟩
          positive := fun c' => (h.positive c').trans_le (hseq _)
          nodup := List.nodup_cons.mpr
            ⟨fun hmem => absurd (h.unused _ hmem).2.2.1 (Nat.lt_irrefl _), h.nodup⟩
          unused := fun p hp => by
            rcases List.mem_cons.mp hp with rfl | hp
            · refine ⟨hc, h.positive c, ?_, fun m hm he => ?_⟩
              · simp
              · obtain ⟨hclient, hnumber⟩ := Prod.mk.inj he
                have hlt := (h.seqs m hm).2
                rw [hclient, hnumber] at hlt
                exact absurd hlt (Nat.lt_irrefl _)
            · obtain ⟨hp1, hpos, hlt, hfresh⟩ := h.unused p hp
              exact ⟨hp1, hpos, hlt.trans_le (hseq _), hfresh⟩ }
    · exact h
  | sendMedia c port seq pts revision flags data isArray =>
    simp only [MediaPlane.step]
    split
    · next hdrawn =>
      obtain ⟨hc, hpos, hlt, hfresh⟩ := h.unused _ hdrawn
      have hrest : ∀ p ∈ self.drawn.erase (c, seq), p ≠ (c, seq) ∧ p ∈ self.drawn :=
        fun p hp => (h.nodup.mem_erase_iff).mp hp
      split
      · exact
          { h with
            nodup := h.nodup.erase _
            unused := fun p hp => h.unused p (hrest p hp).2 }
      · next dst _ =>
        let new := { self.clients c with mediaMsgId := (self.clients c).mediaMsgId + 1 }
        have hmsgId : ∀ c', (self.clients c').mediaMsgId ≤
            (Function.update self.clients c new c').mediaMsgId :=
          le_update (f := MediaClient.mediaMsgId) (Nat.le_succ _)
        have hseq : ∀ c', (Function.update self.clients c new c').mediaSeq =
            (self.clients c').mediaSeq := update_eq (f := MediaClient.mediaSeq) rfl
        refine
          { clients := List.forall_mem_append.mpr ⟨h.clients, List.forall_mem_singleton.mpr hc⟩
            msgIds := List.forall_mem_append.mpr ⟨fun m hm => (h.msgIds m hm).trans_le (hmsgId _),
              List.forall_mem_singleton.mpr (by simp)⟩
            seqs := List.forall_mem_append.mpr
              ⟨fun m hm => ⟨(h.seqs m hm).1, (h.seqs m hm).2.trans_eq (hseq _).symm⟩,
                List.forall_mem_singleton.mpr ⟨hpos, hlt.trans_eq (hseq _).symm⟩⟩
            positive := fun c' => (h.positive c').trans_eq (hseq _).symm
            distinct := by
              refine List.pairwise_append.mpr ⟨h.distinct, List.pairwise_singleton .., ?_⟩
              intro m hm m' hm' hsame
              obtain rfl := List.mem_singleton.mp hm'
              have hbelow := h.msgIds m hm
              rw [hsame] at hbelow
              exact ⟨Nat.ne_of_lt hbelow, fun he => hfresh m hm (Prod.ext hsame he)⟩
            nodup := h.nodup.erase _
            unused := fun p hp => by
              obtain ⟨hc', hpos', hlt', hfresh'⟩ := h.unused p (hrest p hp).2
              exact ⟨hc', hpos', hlt'.trans_eq (hseq _).symm, List.forall_mem_append.mpr
                ⟨hfresh', List.forall_mem_singleton.mpr fun he => (hrest p hp).1 he.symm⟩⟩
            short := List.forall_mem_append.mpr ⟨h.short, List.forall_mem_singleton.mpr <| by
              rw [length_datagrams_message]
              exact hshort⟩
            origin := List.forall_mem_append.mpr ⟨fun d hd => ?_, fun d hd => ?_⟩ }
        · obtain ⟨m, hm, horigin⟩ := h.origin d hd
          exact ⟨m, List.mem_append_left _ hm, horigin⟩
        · obtain ⟨buf, hbuf, rfl⟩ := List.mem_map.mp hd
          exact ⟨_, List.mem_append_right _ (List.mem_singleton_self _), rfl, hbuf⟩
    · exact h
  | helloAck => exact h.reader ..
  | deliver k now =>
    simp only [MediaPlane.step]
    split
    · split
      · unfold recv
        split
        · exact h
        · split
          · exact h.reader ..
          · exact h.reader ..
      · exact h
    · exact h
  | sweep now timeout => exact h.reader ..

theorem mem_messages {m : MediaMessage} {sent : List Sent} :
    m ∈ messages client stream sent ↔
      ∃ a ∈ sent, (a.client = client ∧ a.stream = stream) ∧ a.message = m := by
  simp [messages, and_assoc]

theorem ofNat_inj {n n' : Nat} (h : n < 2 ^ 32) (h' : n' < 2 ^ 32)
    (he : BitVec.ofNat 32 n = BitVec.ofNat 32 n') : n = n' := by
  have hnat := congrArg BitVec.toNat he
  simp only [BitVec.toNat_ofNat] at hnat
  omega

/-- As long as the counters of a client have not come round, its messages are told apart. -/
theorem Counted.ordered (h : self.Counted) {a : Action} (few : self.Few client a)
    (stream : MediaStream) :
    ∃ ms, (∀ m, m ∈ ms ↔ m ∈ messages client stream self.sent) ∧ Ordered ms := by
  obtain ⟨-, hmsgIds, hseqs, -⟩ := few
  let le (m m' : MediaMessage) : Bool := decide (m.seq ≤ m'.seq)
  have hperm := List.mergeSort_perm (messages client stream self.sent) le
  have hdistinct : (messages client stream self.sent).Pairwise fun m m' =>
      m.msgId ≠ m'.msgId ∧ m.seq ≠ m'.seq := by
    refine List.pairwise_map.mpr ((h.distinct.filter _).imp_of_mem fun hm hm' hne => ?_)
    obtain ⟨hm, hclient⟩ := List.mem_filter.mp hm
    obtain ⟨hm', hclient'⟩ := List.mem_filter.mp hm'
    have hsame := (of_decide_eq_true hclient).1
    have hsame' := (of_decide_eq_true hclient').1
    obtain ⟨hid, hseq⟩ := hne (hsame.trans hsame'.symm)
    have hidlt := h.msgIds _ hm
    have hidlt' := h.msgIds _ hm'
    have hseqlt := (h.seqs _ hm).2
    have hseqlt' := (h.seqs _ hm').2
    rw [hsame] at hidlt hseqlt
    rw [hsame'] at hidlt' hseqlt'
    exact ⟨fun he => hid (ofNat_inj (hidlt.trans_le hmsgIds) (hidlt'.trans_le hmsgIds) he),
      fun he => hseq (ofNat_inj (hseqlt.trans_le hseqs) (hseqlt'.trans_le hseqs) he)⟩
  have hsorted : ((messages client stream self.sent).mergeSort le).Pairwise
      fun m m' => m.msgId ≠ m'.msgId ∧ m.seq ≠ m'.seq :=
    (hperm.pairwise_iff fun hne => ⟨hne.1.symm, hne.2.symm⟩).mpr hdistinct
  refine ⟨(messages client stream self.sent).mergeSort le, fun m => hperm.mem_iff, ?_, ?_, ?_⟩
  · exact List.pairwise_map.mpr (hsorted.imp fun hne => hne.1)
  · have htrans : ∀ m m' m'' : MediaMessage, le m m' → le m' m'' → le m m'' :=
      fun m m' m'' hm hm' => decide_eq_true
        (BitVec.le_trans (of_decide_eq_true hm) (of_decide_eq_true hm'))
    have htotal : ∀ m m' : MediaMessage, le m m' || le m' m := fun m m' => by
      rcases BitVec.le_total m.seq m'.seq with hm | hm <;> simp [le, hm]
    refine ((List.pairwise_mergeSort htrans htotal _).and hsorted).imp fun hm => ?_
    exact BitVec.lt_of_le_ne (of_decide_eq_true hm.1) hm.2.2
  · intro m hm hzero
    obtain ⟨a, ha, ⟨hclient, -⟩, rfl⟩ := mem_messages.mp (hperm.mem_iff.mp hm)
    obtain ⟨hpos, hlt⟩ := h.seqs a ha
    rw [hclient] at hlt
    have hseq : a.seq = 0 :=
      ofNat_inj (hlt.trans_le hseqs) (by decide) (hzero : BitVec.ofNat 32 a.seq = .ofNat 32 0)
    exact hpos.ne' hseq

/-- A datagram of `sendMedia` has the id of the client in its header. -/
theorem clientId_datagrams {m : Sent} {buf : Bytes} (h : buf ∈ m.message.datagrams)
    {f : MediaFragment} (hf : decodeMediaDatagram buf = some f) :
    f.clientId = BitVec.ofNat 32 m.client := by
  simp only [Sent.message, datagrams, sendMedia, List.mem_map] at h
  obtain ⟨i, -, rfl⟩ := h
  rw [encode_eq, decode_encodeMediaDatagram] at hf
  cases hf
  rfl

/-- The reader is alive, and what it has begun and what it has handed on is of its session. -/
def Reading (client : Nat) (stream : MediaStream) (s : MediaPlane) : Prop :=
  ∃ r, s.reader = some r ∧ (r.clientId = 0 ∨ r.clientId = BitVec.ofNat 32 client) ∧
    Holding (messages client stream s.sent) r.reassembler ∧
    ∃ es : List MediaMessage, s.events = es.map assembled ∧
      (es.Pairwise fun m m' => m.seq < m'.seq) ∧
      ∀ m ∈ es, m ∈ messages client stream s.sent ∧ m.seq ≤ r.reassembler.lastSeq

theorem Reading.recv (h : self.Reading client stream) (counted : self.Counted)
    (hclient : client < 2 ^ 32) {a : Action} (few : self.Few client a) {dst : InetSocketAddress}
    {buf : Bytes} (hsent : (stream, dst, buf) ∈ self.inFlight) (now : Nat) :
    (self.recv now buf).Reading client stream := by
  obtain ⟨r, hreader, hid, hholding, es, hevents, hascending, hgenuine⟩ := h
  simp only [MediaPlane.recv, hreader]
  cases hpassed : r.passed buf with
  | none =>
    simp only [MediaReader.recv, hpassed]
    exact ⟨r, rfl, hid, hholding, es, by simpa using hevents, hascending, hgenuine⟩
  | some f =>
    have hdecode : decodeMediaDatagram buf = some f ∧ r.clientId ≠ 0 ∧ f.clientId = r.clientId := by
      unfold MediaReader.passed at hpassed
      split at hpassed
      · cases hpassed
      · split at hpassed
        · cases hpassed
        · next g hg hsession =>
          split at hpassed
          · cases hpassed
          · cases hpassed
            simp only [not_or, not_not] at hsession
            exact ⟨hg, hsession⟩
    obtain ⟨hdecode, hnonzero, hsession⟩ := hdecode
    obtain ⟨m, hm, hstream, hbuf⟩ := counted.origin _ hsent
    have hown : m.client = client := by
      refine ofNat_inj ((counted.clients m hm).trans_le few.1) hclient ?_
      rw [← clientId_datagrams hbuf hdecode, hsession]
      exact hid.resolve_left hnonzero
    obtain ⟨i, hi⟩ := List.getElem?_of_mem hbuf
    obtain ⟨f', hdecode', hfragment⟩ := hasFragment_datagrams (counted.short m hm) hi
    obtain rfl := Option.some.inj (hdecode'.symm.trans hdecode)
    obtain ⟨ms, hms, ordered⟩ := counted.ordered few stream
    have hmem : m.message ∈ messages client stream self.sent :=
      mem_messages.mpr ⟨m, hm, ⟨hown, hstream⟩, rfl⟩
    obtain ⟨r', out, hpush, hkept, hout⟩ := (hholding.mono fun m hm => (hms m).mpr hm).push
      ordered ((hms _).mpr hmem) hfragment now
    have hkept' := hkept.mono fun m hm => (hms m).mp hm
    simp only [MediaReader.recv, hpassed, hpush, Option.map_some]
    rcases hout with ⟨rfl, hlast⟩ | ⟨rfl, hnew, hlast⟩
    · refine ⟨_, rfl, hid, hkept', es, by simpa using hevents, hascending, fun e he => ?_⟩
      rw [hlast]
      exact hgenuine e he
    · have hbelow : ∀ e ∈ es, e.seq < m.message.seq := fun e he =>
        BitVec.lt_def.mpr ((BitVec.le_def.mp (hgenuine e he).2).trans_lt (BitVec.lt_def.mp hnew))
      refine ⟨_, rfl, hid, hkept', es ++ [m.message], ?_, ?_, ?_⟩
      · simp [hevents]
      · refine List.pairwise_append.mpr ⟨hascending, List.pairwise_singleton .., ?_⟩
        intro e he e' he'
        rw [List.mem_singleton.mp he']
        exact hbelow e he
      · rw [hlast]
        refine List.forall_mem_append.mpr ⟨fun e he => ?_, List.forall_mem_singleton.mpr ?_⟩
        · exact ⟨(hgenuine e he).1, BitVec.le_of_lt (hbelow e he)⟩
        · exact ⟨hmem, BitVec.le_refl _⟩

theorem Reading.step (h : self.Reading client stream) (counted : self.Counted)
    (hclient : client < 2 ^ 32) {a : Action} (few : self.Few client a) :
    (self.step client stream pc a).Reading client stream := by
  obtain ⟨r, hreader, hid, hholding, es, hevents, hascending, hgenuine⟩ := h
  have hself : self.Reading client stream :=
    ⟨r, hreader, hid, hholding, es, hevents, hascending, hgenuine⟩
  cases a with
  | acceptSrc => exact hself
  | removeClient c => exact hself
  | receive port src buf =>
    simp only [MediaPlane.step]
    split
    · exact hself
    · split <;> exact hself
  | nextMediaSeq c =>
    simp only [MediaPlane.step]
    split <;> exact hself
  | sendMedia c port seq pts revision flags data isArray =>
    simp only [MediaPlane.step]
    split
    · split
      · exact hself
      · have hmore (x : Sent) (m : MediaMessage) (hm : m ∈ messages client stream self.sent) :
            m ∈ messages client stream (self.sent ++ [x]) := by
          rw [messages, List.filter_append, List.map_append]
          exact List.mem_append_left _ hm
        exact ⟨r, hreader, hid, hholding.mono (hmore _), es, hevents, hascending,
          fun e he => ⟨hmore _ e (hgenuine e he).1, (hgenuine e he).2⟩⟩
    · exact hself
  | helloAck =>
    simp only [MediaPlane.step, hreader]
    exact ⟨_, rfl, Or.inr rfl, hholding, es, hevents, hascending, hgenuine⟩
  | deliver k now =>
    simp only [MediaPlane.step]
    split
    · next port dst buf hget =>
      split
      · next hroute =>
        obtain ⟨rfl, rfl⟩ := hroute
        exact hself.recv counted hclient few (List.mem_of_getElem? hget) now
      · exact hself
    · exact hself
  | sweep now timeout =>
    simp only [MediaPlane.step, hreader]
    exact ⟨_, rfl, hid, hholding.sweep now timeout, es, hevents, hascending, hgenuine⟩

/-- Whoever registers at the media ports, and whatever becomes of the datagrams: the reader does
not panic, and it hands on messages that the client of its session sent on its stream, each once
and in the order of their numbers. -/
theorem media_isolated (client : Nat) (stream : MediaStream) (pc : InetSocketAddress)
    (hclient : client < 2 ^ 32) (now : Nat) (actions : List Action)
    (few : Run.Along (step client stream pc) (Few client) (init now) actions) :
    let s := Run.run (step client stream pc) (init now) actions
    s.reader.isSome = true ∧
      ∃ es : List MediaMessage, s.events = es.map assembled ∧
        (es.Pairwise fun m m' => m.seq < m'.seq) ∧
        ∀ m ∈ es, m ∈ messages client stream s.sent := by
  intro s
  have hstart : (init now).Counted ∧ (init now).Reading client stream := by
    refine ⟨counted_init now, .init now, rfl, Or.inl rfl, ?_, [], rfl, List.Pairwise.nil, by simp⟩
    intro k part hpart
    simp [MediaReader.init, MediaReassembler.new] at hpart
  obtain ⟨-, r, hreader, -, -, es, hevents, hascending, hgenuine⟩ :=
    Run.invariant (I := fun s : MediaPlane => s.Counted ∧ s.Reading client stream)
      (fun _ a h hfew => ⟨h.1.step hfew.2.2.2, h.2.step h.1 hclient hfew⟩) hstart few
  exact ⟨by rw [hreader]; rfl, es, hevents, hascending, fun m hm => (hgenuine m hm).1⟩

/-- One frame for the first of two clients, after its OPEN. -/
theorem media_isolated_frame :
    let openDatagram := encodeMediaDatagram ⟨1, 0, 0, 0, mediaOpenTotal, 0, 0, 0, []⟩
    let actions : List Action := [.acceptSrc, .acceptSrc, .helloAck, .receive .video 7 openDatagram,
      .nextMediaSeq 1, .sendMedia 1 .video 1 20 0 1 [8, 9] (by decide), .deliver 0 5]
    let s := Run.run (step 1 .video 7) (init 0) actions
    s.reader.isSome = true ∧
      ∃ es : List MediaMessage, s.events = es.map assembled ∧
        (es.Pairwise fun m m' => m.seq < m'.seq) ∧ ∀ m ∈ es, m ∈ messages 1 .video s.sent := by
  intro openDatagram actions
  exact media_isolated 1 .video 7 (by decide) 0 actions (by decide)

/-- A datagram with the client id has come to the port from the address. -/
def Registers (past : List Action) (port : MediaStream) (dst : InetSocketAddress) (id : U32) :
    Prop :=
  ∃ buf, Action.receive port dst buf ∈ past ∧ mediaHdrLen ≤ buf.length ∧
    parseClientId buf buf.length = id

structure Registered (past : List Action) (s : MediaPlane) : Prop where
  ids : ∀ id c, s.clientById id = some c → BitVec.ofNat 32 c = id
  endpoints : ∀ c port dst, (s.clients c).endpoint port = some dst →
    Registers past port dst (BitVec.ofNat 32 c)
  flights : ∀ d ∈ s.inFlight, ∀ f, decodeMediaDatagram d.2.2 = some f →
    Registers past d.1 d.2.1 f.clientId

theorem Registers.mono {past : List Action} {port : MediaStream} {dst : InetSocketAddress}
    {id : U32} (h : Registers past port dst id) (a : Action) :
    Registers (past ++ [a]) port dst id := by
  obtain ⟨buf, hbuf, hlen⟩ := h
  exact ⟨buf, List.mem_append_left _ hbuf, hlen⟩

theorem Registered.mono {past : List Action} (h : self.Registered past) (a : Action) :
    self.Registered (past ++ [a]) where
  ids := h.ids
  endpoints c port dst hdst := (h.endpoints c port dst hdst).mono a
  flights d hd f hf := (h.flights d hd f hf).mono a

/-- A client whose endpoints stay as they are. -/
theorem Registered.update {past : List Action} (h : self.Registered past) (c : Nat)
    (new : MediaClient) (hsame : ∀ port, new.endpoint port = (self.clients c).endpoint port) :
    Registered past { self with clients := Function.update self.clients c new } where
  ids := h.ids
  endpoints c' port dst hdst :=
    h.endpoints c' port dst ((update_eq (f := (·.endpoint port)) (hsame port) c').symm.trans hdst)
  flights := h.flights

theorem Registered.step {past : List Action} (h : self.Registered past) (a : Action) :
    (self.step client stream pc a).Registered (past ++ [a]) := by
  have hmore := h.mono a
  cases a with
  | acceptSrc =>
    exact
      { ids := fun id c hc => by
          simp only [MediaPlane.step, Function.update_apply] at hc
          split at hc
          · next heq =>
            cases hc
            exact heq.symm
          · exact h.ids id c hc
        endpoints := fun c port dst hdst => by
          simp only [MediaPlane.step, Function.update_apply] at hdst
          split at hdst
          · cases port <;> cases hdst
          · exact hmore.endpoints c port dst hdst
        flights := hmore.flights }
  | removeClient c =>
    exact
      { hmore with
        ids := fun id c' hc => by
          simp only [MediaPlane.step, Function.update_apply] at hc
          split at hc
          · cases hc
          · exact h.ids id c' hc }
  | receive port src buf =>
    simp only [MediaPlane.step]
    split
    · exact hmore
    · next hlegal =>
      have hlen : mediaHdrLen ≤ buf.length := by
        by_contra hshort
        exact hlegal (by rw [parseClientId, if_pos (Nat.not_le.mp hshort)]; decide)
      split
      · exact hmore
      · next c hc =>
        exact
          { hmore with
            endpoints := fun c' port' dst hdst => by
              simp only [Function.update_apply] at hdst
              split at hdst
              · next heq =>
                subst heq
                by_cases hport : port' = port
                · subst hport
                  have hsrc : src = dst := by
                    cases port' <;> exact Option.some.inj hdst
                  subst hsrc
                  exact ⟨buf, by simp, hlen, (h.ids _ _ hc).symm⟩
                · refine hmore.endpoints c' port' dst ?_
                  cases port <;> cases port' <;> first | exact absurd rfl hport | exact hdst
              · exact hmore.endpoints c' port' dst hdst }
  | nextMediaSeq c =>
    simp only [MediaPlane.step]
    split
    · have hupdate := hmore.update c
        { self.clients c with mediaSeq := (self.clients c).mediaSeq + 1 }
        fun port => by cases port <;> rfl
      exact { hupdate with }
    · exact hmore
  | sendMedia c port seq pts revision flags data isArray =>
    simp only [MediaPlane.step]
    split
    · split
      · exact { hmore with }
      · next dst hdst =>
        have hupdate := hmore.update c
          { self.clients c with mediaMsgId := (self.clients c).mediaMsgId + 1 }
          fun port' => by cases port' <;> rfl
        refine { hupdate with flights := List.forall_mem_append.mpr ⟨hmore.flights, ?_⟩ }
        intro d hd f hf
        obtain ⟨buf, hbuf, rfl⟩ := List.mem_map.mp hd
        rw [clientId_datagrams hbuf hf]
        exact hmore.endpoints c port dst hdst
    · exact hmore
  | helloAck => exact { hmore with }
  | deliver k now =>
    simp only [MediaPlane.step]
    split
    · split
      · unfold recv
        split
        · exact hmore
        · split <;> exact { hmore with }
      · exact hmore
    · exact hmore
  | sweep now timeout => exact { hmore with }

theorem Registered.run {past : List Action} (h : self.Registered past) (actions : List Action) :
    (Run.run (MediaPlane.step client stream pc) self actions).Registered (past ++ actions) := by
  induction actions generalizing self past with
  | nil => simpa using h
  | cons a actions ih => simpa using ih (h.step a)

/-- Media go only to addresses from which a datagram with the client's id had come to the same
port. -/
theorem media_goes_to_registrants (client : Nat) (stream : MediaStream) (pc : InetSocketAddress)
    (now : Nat) (actions : List Action) :
    ∀ d ∈ (Run.run (step client stream pc) (init now) actions).inFlight,
      ∀ f, decodeMediaDatagram d.2.2 = some f → Registers actions d.1 d.2.1 f.clientId := by
  have hstart : (init now).Registered [] := by
    refine ⟨fun id c hc => ?_, fun c port dst hdst => ?_, by simp [init]⟩
    · cases hc
    · cases port <;> cases hdst
  exact (hstart.run actions).flights

theorem media_goes_to_registrants_frame :
    let openDatagram := encodeMediaDatagram ⟨1, 0, 0, 0, mediaOpenTotal, 0, 0, 0, []⟩
    let actions : List Action := [.acceptSrc, .receive .video 7 openDatagram, .nextMediaSeq 1,
      .sendMedia 1 .video 1 20 0 1 [8, 9] (by decide)]
    Registers actions .video 7 1 := by
  intro openDatagram actions
  let frame : MediaFragment := ⟨1, 1, 1, 0, 1, 20, 0, 1, [8, 9]⟩
  have hsent : (.video, 7, encodeMediaDatagram frame) ∈
      (Run.run (step 1 .video 7) (init 0) actions).inFlight := by
    decide +kernel
  exact media_goes_to_registrants 1 .video 7 0 actions _ hsent frame
    (decode_encodeMediaDatagram frame)

end MediaPlane
end Kulua.Media
