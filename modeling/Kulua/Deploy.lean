import Kulua.Foundation.Numeral
import Kulua.Ipc.Settings
import Kulua.ServerLifetime
import Kulua.UdpSession

/-! The start of the phone's server: the arguments that `ScrcpyServer::deploy_scrcpy` writes, and
`Options.java`, which reads them. Between the two is the shell of the device. -/

namespace Kulua
open Foundation Foundation.Text Foundation.Numeral

def scidPrefix : U32 := 0x4B4C0000

def scidForPort (port : BitVec 16) : U32 := scidPrefix ||| port.setWidth 32

def scidHex (port : BitVec 16) : Str := hex 8 (scidForPort port).toNat

structure ScrcpyParams where
  videoBitRate : U32
  videoMaxSize : U32
  videoMaxFps : U32
  audioBitRate : U32
  audioCodec : Str

def ScrcpyParams.ofConfig (cfg : Ipc.Settings.AppConfig) : ScrcpyParams :=
  ⟨cfg.videoBitRate, cfg.videoMaxSize, cfg.videoMaxFps, cfg.audioBitRate, cfg.audioCodec⟩

def remoteJar : Str := "/data/local/tmp/kulua-server.jar".toList

/-- `key=value`. -/
def argument (key value : Str) : Str := key ++ '=' :: value

/-- The words that `deploy_scrcpy` hands to the shell. -/
def deployArgs (port : BitVec 16) (params : ScrcpyParams) : List Str :=
  [argument "CLASSPATH".toList remoteJar, "app_process".toList, "/".toList,
    "com.kulua.server.Server".toList, argument "scid".toList (scidHex port),
    argument "port".toList (decimal port.toNat)] ++
  (if params.audioCodec = [] then [] else [argument "audio_codec".toList params.audioCodec]) ++
  if params.audioBitRate = 0 then []
  else [argument "audio_bit_rate".toList (decimal params.audioBitRate.toNat)]

/-- What `app_process` hands to `main`: the words after the name of the class. -/
def mainArgs (words : List Str) : List Str := words.drop 4

/-- All that `Options.java` reads. -/
structure StartOptions extends Options where
  port : U32
  listApps : Bool
  audioBitRate : U32
  videoBitRate : U32
  deriving DecidableEq

namespace StartOptions

def ctrlPort (self : StartOptions) : U32 := self.port
def videoPort (self : StartOptions) : U32 := self.port + 1
def audioPort (self : StartOptions) : U32 := self.port + 2

/-- One argument; the last one of a key counts. -/
def put (map : Str → Option Str) (arg : Str) : Str → Option Str :=
  let eq := arg.idxOf '='
  if 0 < eq ∧ eq < arg.length then
    Function.update map (arg.take eq) (some (arg.drop (eq + 1)))
  else map

def parse (args : List Str) : StartOptions :=
  let map := args.foldl put fun _ => none
  { scid := String.ofList ((map "scid".toList).getD "4b4c0000".toList)
    -- a number that does not parse is ignored
    port := ((map "port".toList).bind parseInt).getD 27183
    listApps := map "list_apps".toList = some "true".toList
    audioCodec := String.ofList ((map "audio_codec".toList).getD "raw".toList)
    audioBitRate := ((map "audio_bit_rate".toList).bind parseInt).getD 0
    videoBitRate := ((map "video_bit_rate".toList).bind parseInt).getD 8000000 }

theorem put_argument (map : Str → Option Str) {key : Str} (hne : key ≠ []) (h : '=' ∉ key)
    (value : Str) : put map (argument key value) = Function.update map key (some value) := by
  have hidx : (argument key value).idxOf '=' = key.length := by
    rw [argument, List.idxOf_append_of_notMem h]
    simp
  have hpos : 0 < key.length := List.length_pos_of_ne_nil hne
  have hlt : key.length < (argument key value).length := by simp [argument]
  simp only [put, hidx]
  rw [if_pos ⟨hpos, hlt⟩]
  simp [argument]

theorem foldl_put_optional {c : Prop} [Decidable c] (map : Str → Option Str) {key : Str}
    (hne : key ≠ []) (h : '=' ∉ key) (value : Str) :
    (if c then [] else [argument key value]).foldl put map =
      if c then map else Function.update map key (some value) := by
  split
  · rfl
  · exact put_argument map hne h value

theorem optional_self {c : Prop} [Decidable c] (map : Str → Option Str) (key value : Str) :
    (if c then map else Function.update map key (some value)) key =
      if c then map key else some value := by
  split
  · rfl
  · exact Function.update_self ..

theorem optional_of_ne {c : Prop} [Decidable c] (map : Str → Option Str) {key key' : Str}
    (h : key' ≠ key) (value : Str) :
    (if c then map else Function.update map key (some value)) key' = map key' := by
  split
  · rfl
  · exact Function.update_of_ne h ..

/-- What is found of the daemon's arguments. -/
theorem foldl_put_deployArgs (port : BitVec 16) (params : ScrcpyParams) :
    let map := (mainArgs (deployArgs port params)).foldl put fun _ => none
    map "scid".toList = some (scidHex port) ∧
      map "port".toList = some (decimal port.toNat) ∧
      map "list_apps".toList = none ∧
      map "audio_codec".toList =
        (if params.audioCodec = [] then none else some params.audioCodec) ∧
      map "audio_bit_rate".toList =
        (if params.audioBitRate = 0 then none else some (decimal params.audioBitRate.toNat)) ∧
      map "video_bit_rate".toList = none := by
  have hargs : mainArgs (deployArgs port params) =
      [argument "scid".toList (scidHex port), argument "port".toList (decimal port.toNat)] ++
        (if params.audioCodec = [] then []
          else [argument "audio_codec".toList params.audioCodec]) ++
        if params.audioBitRate = 0 then []
        else [argument "audio_bit_rate".toList (decimal params.audioBitRate.toNat)] := rfl
  rw [hargs, List.foldl_append, List.foldl_append, List.foldl_cons, List.foldl_cons, List.foldl_nil,
    put_argument _ (by decide) (by decide), put_argument _ (by decide) (by decide),
    foldl_put_optional _ (by decide) (by decide), foldl_put_optional _ (by decide) (by decide)]
  refine ⟨?_, ?_, ?_, ?_, ?_, ?_⟩
  · rw [optional_of_ne _ (by decide), optional_of_ne _ (by decide),
      Function.update_of_ne (by decide), Function.update_self]
  · rw [optional_of_ne _ (by decide), optional_of_ne _ (by decide), Function.update_self]
  · rw [optional_of_ne _ (by decide), optional_of_ne _ (by decide),
      Function.update_of_ne (by decide), Function.update_of_ne (by decide)]
  · rw [optional_of_ne _ (by decide), optional_self, Function.update_of_ne (by decide),
      Function.update_of_ne (by decide)]
  · rw [optional_self, optional_of_ne _ (by decide), Function.update_of_ne (by decide),
      Function.update_of_ne (by decide)]
  · rw [optional_of_ne _ (by decide), optional_of_ne _ (by decide),
      Function.update_of_ne (by decide), Function.update_of_ne (by decide)]

end StartOptions

/-- The options with which the server of a port starts. The video parameters are not handed on,
and a bit rate from 2^31 on is none to Java. -/
def startOptions (port : BitVec 16) (params : ScrcpyParams) : StartOptions where
  scid := String.ofList (scidHex port)
  port := port.setWidth 32
  listApps := false
  audioCodec := if params.audioCodec = [] then "raw" else String.ofList params.audioCodec
  audioBitRate := if params.audioBitRate.toNat < 2 ^ 31 then params.audioBitRate else 0
  videoBitRate := 8000000

theorem parse_deployArgs (port : BitVec 16) (params : ScrcpyParams) :
    StartOptions.parse (mainArgs (deployArgs port params)) = startOptions port params := by
  have hport : parseInt (decimal port.toNat) = some (port.setWidth 32) := by
    rw [parseInt_decimal, if_pos (by omega)]
    simp
  have hcodec : String.ofList ((if params.audioCodec = [] then none
      else some params.audioCodec).getD "raw".toList) =
        if params.audioCodec = [] then "raw" else String.ofList params.audioCodec := by
    split <;> rfl
  have hrate : ((if params.audioBitRate = 0 then none
      else some (decimal params.audioBitRate.toNat)).bind parseInt).getD 0 =
        if params.audioBitRate.toNat < 2 ^ 31 then params.audioBitRate else 0 := by
    by_cases hzero : params.audioBitRate = 0
    · simp [hzero]
    · rw [if_neg hzero, Option.bind_some, parseInt_decimal]
      split
      · simp
      · rfl
  obtain ⟨hscid, hp, hlist, hc, hr, hvideo⟩ := StartOptions.foldl_put_deployArgs port params
  simp only [StartOptions.parse, hscid, hp, hlist, hc, hr, hvideo, hport, hcodec, hrate,
    Option.getD_some, Option.bind_some, Option.getD_none, Option.bind_none]
  rfl

/-- A character without a meaning to the shell. -/
def plainChar (c : Char) : Bool := c.isAlphanum || ['=', '_', '-', '.', '/'].contains c

def Plain (word : Str) : Prop := word ≠ [] ∧ word.all plainChar = true

theorem plain_toDigits {b n : Nat} (hb : 1 < b) (hb' : b ≤ 16) :
    (Nat.toDigits b n).all plainChar = true := by
  have hdigit : ∀ d < 16, plainChar (Nat.digitChar d) = true := by decide
  rw [List.all_eq_true]
  intro c hc
  obtain ⟨d, hd, rfl⟩ := mem_toDigits hb hc
  exact hdigit d (hd.trans_le hb')

theorem plain_argument {key value : Str} (hkey : key.all plainChar = true)
    (hvalue : value.all plainChar = true) : Plain (argument key value) := by
  refine ⟨by simp [argument], ?_⟩
  rw [argument, List.all_append, hkey, List.all_cons, hvalue]
  rfl

theorem toNat_scidForPort (port : BitVec 16) :
    (scidForPort port).toNat = 0x4B4C0000 + port.toNat := by
  have hadd := Nat.shiftLeft_add_eq_or_of_lt port.isLt 0x4B4C
  rw [scidForPort, BitVec.toNat_or, BitVec.toNat_setWidth_of_le (by decide)]
  exact hadd.symm

theorem scidHex_eq (port : BitVec 16) :
    scidHex port = Nat.toDigits 16 (scidForPort port).toNat := by
  refine hex_eq (by decide) ?_
  rw [toNat_scidForPort]
  omega

theorem plain_deployArgs (port : BitVec 16) {params : ScrcpyParams}
    (hcodec : params.audioCodec.all plainChar = true) :
    ∀ word ∈ deployArgs port params, Plain word := by
  have hscid : (scidHex port).all plainChar = true := by
    rw [scidHex_eq]
    exact plain_toDigits (by decide) (by decide)
  have hdecimal (n : Nat) : (decimal n).all plainChar = true :=
    plain_toDigits (by decide) (by decide)
  intro word hword
  simp only [deployArgs, List.mem_append, List.mem_cons, List.not_mem_nil, or_false,
    List.mem_ite_nil_left] at hword
  rcases hword with ((rfl | rfl | rfl | rfl | rfl | rfl) | ⟨-, rfl⟩) | ⟨-, rfl⟩
  · exact plain_argument (by decide) (by decide)
  · exact ⟨by decide, by decide⟩
  · exact ⟨by decide, by decide⟩
  · exact ⟨by decide, by decide⟩
  · exact plain_argument (by decide) hscid
  · exact plain_argument (by decide) (hdecimal _)
  · exact plain_argument (by decide) hcodec
  · exact plain_argument (by decide) (hdecimal _)

theorem scidHex_injective : Function.Injective scidHex := by
  intro p q h
  rw [scidHex_eq, scidHex_eq] at h
  have hscid := toDigits_injective (by decide) (by decide) h
  rw [toNat_scidForPort, toNat_scidForPort] at hscid
  exact BitVec.eq_of_toNat_eq (Nat.add_left_cancel hscid)

/-- The server of one port takes the HELLO of another one's session for a stranger's. -/
theorem equalsIgnoreCase_scidHex (p q : BitVec 16) :
    UdpServer.equalsIgnoreCase (String.ofList (scidHex p)) (String.ofList (scidHex q)) = true ↔
      p = q := by
  have hlower (port : BitVec 16) :
      (String.ofList (scidHex port)).toLower = String.ofList (scidHex port) := by
    apply String.toList_injective
    change ((String.ofList (scidHex port)).map Char.toLower).toList = _
    rw [String.toList_map, String.toList_ofList, scidHex_eq]
    have hchars : ∀ c ∈ Nat.toDigits 16 (scidForPort port).toNat, c.toLower = id c := by
      intro c hc
      obtain ⟨d, hd, rfl⟩ := mem_toDigits (by decide) hc
      exact toLower_digitChar d hd
    exact (List.map_congr_left hchars).trans (List.map_id _)
  rw [UdpServer.equalsIgnoreCase, hlower, hlower, beq_iff_eq, String.ofList_inj,
    scidHex_injective.eq_iff]

/-- The words that `adb shell` joins with blanks and the device parts again. -/
def shellWords (words : List Str) : List Str :=
  (([' '].intercalate words).splitOn ' ').filter (· ≠ [])

theorem shellWords_plain (words : List Str) (h : ∀ word ∈ words, Plain word) :
    shellWords words = words := by
  rcases eq_or_ne words [] with rfl | hne
  · rfl
  · have hblank : ∀ word ∈ words, ' ' ∉ word := fun word hword hmem =>
      absurd (List.all_eq_true.mp (h word hword).2 ' ' hmem) (by decide)
    rw [shellWords, List.splitOn_intercalate ' ' hblank hne, List.filter_eq_self]
    exact fun word hword => decide_eq_true (h word hword).1

namespace ServerLoop

variable {self : ServerLoop}

theorem options_step (a : Action) : (self.step a).server.options = self.server.options := by
  have hwith (server : UdpServer) (src : InetSocketAddress)
      (call : ClientConnection → ClientConnection × List Frame) :
      (server.withClient src call).1.options = server.options := by
    unfold UdpServer.withClient
    split <;> rfl
  cases hexited : self.exited with
  | true => simp [step, hexited]
  | false =>
    cases a with
    | markIteration now =>
      simp only [step, hexited, Bool.false_eq_true, if_false, markIteration]
      split <;> rfl
    | receive src now frame =>
      simp only [step, hexited, Bool.false_eq_true, if_false, UdpServer.receive]
      split
      · rfl
      · split
        · split
          · rfl
          · next haccept =>
            unfold UdpServer.acceptSrc at haccept
            split at haccept
            · cases haccept
              rfl
            · cases haccept
        · rfl
    | sweepIdle now => simp [step, hexited, UdpServer.sweepIdle]
    | watchdog src now =>
      simp only [step, hexited, Bool.false_eq_true, if_false, UdpServer.watchdog]
      split
      · rfl
      · split <;> rfl
    | retransmit src now =>
      simp only [step, hexited, Bool.false_eq_true, if_false]
      exact hwith ..
    | media src now =>
      simp only [step, hexited, Bool.false_eq_true, if_false]
      exact hwith ..
    | sendCtrlMsg src now msg =>
      simp only [step, hexited, Bool.false_eq_true, if_false]
      exact hwith ..

theorem options_run (options : Options) (now : Nat) (actions : List Action) :
    (Run.run step (init options now) actions).server.options = options :=
  Run.invariant_all (I := fun s : ServerLoop => s.server.options = options)
    (fun _ a h => (options_step a).trans h) rfl actions

/-- A HELLO from the address, if the action is one, is of the session of another port. -/
def Foreign (port : BitVec 16) (src : InetSocketAddress) : Action → Prop
  | .receive src' _ frame => src' = src → ∀ hello, frame.payload = some (.hello hello) →
    ∃ q, q ≠ port ∧ hello.scid = String.ofList (scidHex q)
  | _ => True

/-- The server is the one of the port, and there is no client at the address. -/
structure Apart (port : BitVec 16) (src : InetSocketAddress) (loop : ServerLoop) : Prop where
  scid : loop.server.options.scid = String.ofList (scidHex port)
  free : loop.server.clients[src]? = none

variable {port : BitVec 16} {src : InetSocketAddress}

/-- Only a HELLO of its own session makes a client. -/
theorem Apart.kept (h : self.Apart port src) {a : Action} (foreign : Foreign port src a) :
    (self.step a).Apart port src := by
  obtain ⟨hscid, hfree⟩ := h
  refine ⟨(congrArg Options.scid (options_step a)).trans hscid, ?_⟩
  have hwith (src' : InetSocketAddress) (call : ClientConnection → ClientConnection × List Frame) :
      (self.server.withClient src' call).1.clients[src]? = none := by
    by_cases hsrc : src' = src
    · subst hsrc
      simp [UdpServer.withClient, hfree]
    · rw [UdpServer.withClient_other hsrc, hfree]
  cases hexited : self.exited with
  | true => rwa [step_exited hexited]
  | false =>
    cases a with
    | markIteration now =>
      by_cases hticks : self.Ticks (.markIteration now)
      · rw [step_patrol hticks]
        simp [UdpServer.tickClients, hfree]
      · rwa [step_early hticks]
    | receive src' now frame =>
      simp only [step, hexited, Bool.false_eq_true, if_false]
      by_cases hsrc : src' = src
      · subst hsrc
        simp only [UdpServer.receive, hfree]
        split
        · next hello _ hpayload =>
          obtain ⟨q, hq, hhello⟩ := foreign rfl hello hpayload
          have hrefused : self.server.acceptSrc src' now hello = none := by
            rw [UdpServer.acceptSrc, hscid, hhello, if_neg]
            exact fun h => hq ((equalsIgnoreCase_scidHex port q).mp h).symm
          rw [hrefused]
          exact hfree
        · exact hfree
      · rw [UdpServer.receive_other hsrc, hfree]
    | sweepIdle now =>
      simp [step, hexited, UdpServer.sweepIdle, hfree]
    | watchdog src' now =>
      simp only [step, hexited, Bool.false_eq_true, if_false, UdpServer.watchdog]
      split
      · exact hfree
      · split
        · rw [Std.TreeMap.getElem?_erase, hfree, ite_self]
        · exact hfree
    | retransmit src' now =>
      simp only [step, hexited, Bool.false_eq_true, if_false]
      exact hwith ..
    | media src' now =>
      simp only [step, hexited, Bool.false_eq_true, if_false]
      exact hwith ..
    | sendCtrlMsg src' now msg =>
      simp only [step, hexited, Bool.false_eq_true, if_false]
      exact hwith ..

/-- The server of a port has the options of the configuration, and whatever else happens, it is
the session of this port that it admits. -/
theorem deployed_server (shell : List Str → List Str)
    (hshell : ∀ words, (∀ word ∈ words, Plain word) → shell words = words) (port : BitVec 16)
    (cfg : Ipc.Settings.AppConfig) (hcodec : cfg.audioCodec.all plainChar = true) (now : Nat)
    (src : InetSocketAddress) (actions : List Action) :
    let options := StartOptions.parse (mainArgs (shell (deployArgs port (.ofConfig cfg))))
    let s : ServerLoop := Run.run step (init options.toOptions now) actions
    options = startOptions port (.ofConfig cfg) ∧
      ((∀ a ∈ actions, Foreign port src a) → s.server.clients[src]? = none) ∧
      (s.exited = false → s.server.clients[src]? = none →
        ∀ (pc : UdpSession) (q : BitVec 16) (audio : Bool) (t : Nat),
          pc.scid = String.ofList (scidHex q) →
          ((s.step (.receive src t (pc.hello audio))).server.clients[src]?.isSome = true ↔
            q = port)) := by
  intro options s
  have hoptions : options = startOptions port (.ofConfig cfg) := by
    rw [← parse_deployArgs, ← hshell _ (plain_deployArgs port hcodec)]
  have hscid : s.server.options.scid = String.ofList (scidHex port) := by
    rw [options_run options.toOptions now actions, hoptions]
    rfl
  refine ⟨hoptions, fun foreign => ?_, fun hrunning hfree pc q audio t hpc => ?_⟩
  · have hstart : (init options.toOptions now).Apart port src := by
      rw [hoptions]
      exact ⟨rfl, by simp [init, UdpServer.new]⟩
    have hend : s.Apart port src := Run.invariant (C := fun _ a => Foreign port src a)
      (fun _ _ h hforeign => h.kept hforeign) hstart (Run.along_of_forall _ foreign)
    exact hend.free
  · constructor
    · intro hclient
      by_contra hq
      have foreign : Foreign port src (.receive src t (pc.hello audio)) := by
        intro _ hello hpayload
        cases hpayload
        exact ⟨q, hq, hpc⟩
      rw [(Apart.kept ⟨hscid, hfree⟩ foreign).free] at hclient
      cases hclient
    · rintro rfl
      have haccept : UdpServer.equalsIgnoreCase s.server.options.scid pc.scid = true := by
        rw [hscid, hpc]
        exact (equalsIgnoreCase_scidHex q q).mpr rfl
      simp [step, hrunning, UdpServer.receive, hfree, UdpSession.hello, UdpSession.plain,
        UdpServer.acceptSrc, haccept, UdpServer.dispatch, ClientConnection.new,
        ClientConnection.onFrame, ClientConnection.touch]

/-- A session of port 27186 at the server of port 27183. -/
theorem deployed_server_other :
    let args := shellWords (deployArgs 27183 (.ofConfig .default))
    let hello := (UdpSession.new 0 (String.ofList (scidHex 27186))).hello true
    let s : ServerLoop := Run.run step (init (StartOptions.parse (mainArgs args)).toOptions 0)
      [.receive 1 0 hello]
    s.server.clients[(1 : InetSocketAddress)]? = none := by
  intro args hello s
  refine (deployed_server shellWords shellWords_plain 27183 .default (by decide) 0 1
    [.receive 1 0 hello]).2.1 fun a ha => ?_
  cases List.mem_singleton.mp ha
  intro _ h hpayload
  cases hpayload
  exact ⟨27186, by decide, rfl⟩

end ServerLoop
end Kulua
