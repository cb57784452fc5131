import LibrtbitDht.Restart

set_option autoImplicit false

namespace LibrtbitDht
open JsonValue
namespace Persistence

def savedAddr (F : TextFormats) (env : Environment) : SavedFile → Option SocketAddr
  | .content value => (DhtSerialize.ofJson F env.clock env.clockV6 env.utcNow value).map DhtSerialize.addr
  | _ => none

/-- Whatever the socket answers, this address is the one that it is asked for. -/
def Binds (F : TextFormats) (env : Environment) (config : PersistentDhtConfig) (file : SavedFile)
    (addr : SocketAddr) : Prop :=
  ∀ bind, (create F { env with bind } config file).map DhtState.listenAddr =
    (bind addr).elim (.error .bind) .ok

/-- What the configuration and the saved address say about the address of a start. -/
structure ListenLaw (config : PersistentDhtConfig) (saved : Option SocketAddr) (addr : SocketAddr) : Prop where
  family : config.ipv4Only = true → addr.isIpv4 = true
  port : addr.port = config.port.getD (saved.elim 0 SocketAddr.port)
  ip : config.ipv4Only = false → ∀ a, saved = some a → a.ip ≠ .v4 0 → addr.ip = a.ip

def startAddr (config : PersistentDhtConfig) (saved : Option SocketAddr) : SocketAddr :=
  (overridePort config (saved.map (patchAddr config))).getD (unspecifiedV6 0)

section Stages
variable (config : PersistentDhtConfig)

@[simp] theorem unspecifiedV6_port (port : BitVec 16) : (unspecifiedV6 port).port = port := rfl

@[simp] theorem unspecifiedV6_isIpv4 (port : BitVec 16) : (unspecifiedV6 port).isIpv4 = false := rfl

theorem patchAddr_port (addr : SocketAddr) : (patchAddr config addr).port = addr.port := by
  unfold patchAddr
  split
  · rfl
  · split
    · rfl
    · rfl

theorem patchAddr_isIpv4 (addr : SocketAddr) (h : config.ipv4Only = true) :
    (patchAddr config addr).isIpv4 = true := by
  rw [patchAddr, if_pos h]
  rfl

theorem patchAddr_eq (addr : SocketAddr) (h : config.ipv4Only = false) (hip : addr.ip ≠ .v4 0) :
    patchAddr config addr = addr := by
  rw [patchAddr, if_neg (by simp [h]), if_neg hip]

theorem startAddr_port (saved : Option SocketAddr) :
    (startAddr config saved).port = config.port.getD (saved.elim 0 SocketAddr.port) := by
  unfold startAddr overridePort
  cases config.port with
  | some port => cases saved <;> simp
  | none =>
    cases saved with
    | none => rfl
    | some addr => exact patchAddr_port config addr

theorem startAddr_some (addr : SocketAddr) :
    startAddr config (some addr) = (patchAddr config addr).setPort (config.port.getD addr.port) := by
  unfold startAddr overridePort
  cases config.port with
  | some port => rfl
  | none =>
    rw [Option.getD_none, ← patchAddr_port config addr, SocketAddr.setPort_port]
    rfl

theorem startAddr_none : startAddr config none = unspecifiedV6 (config.port.getD 0) := by
  unfold startAddr overridePort
  cases config.port <;> rfl

theorem startAddr_listenLaw_iff (saved : Option SocketAddr) :
    ListenLaw config saved (startAddr config saved) ↔ (config.ipv4Only = true → saved.isSome = true) := by
  constructor
  · intro law h4
    cases saved with
    | some addr => rfl
    | none =>
      have hfamily := law.family h4
      rw [startAddr_none, unspecifiedV6_isIpv4] at hfamily
      cases hfamily
  · intro hsaved
    refine ⟨?_, startAddr_port config saved, ?_⟩
    · intro h4
      obtain ⟨addr, rfl⟩ := Option.isSome_iff_exists.1 (hsaved h4)
      rw [startAddr_some, SocketAddr.isIpv4_setPort, patchAddr_isIpv4 config addr h4]
    · rintro h4 addr rfl hip
      rw [startAddr_some, SocketAddr.ip_setPort, patchAddr_eq config addr h4 hip]

end Stages

section Starting
variable {F : TextFormats} {env : Environment} {config : PersistentDhtConfig} {file : SavedFile}

theorem Binds.unique {addr addr' : SocketAddr} (h : Binds F env config file addr)
    (h' : Binds F env config file addr') : addr = addr' := by
  have hsame := (h some).symm.trans (h' some)
  exact Except.ok.inj hsame

theorem withConfig_listenAddr (env : Environment) (config : DhtConfig) :
    (withConfig env config).map DhtState.listenAddr =
      (env.bind (config.listenAddr.getD (unspecifiedV6 0))).elim (.error .bind) .ok := by
  unfold withConfig
  cases hbind : env.bind (config.listenAddr.getD (unspecifiedV6 0)) with
  | none => simp only [hbind, Except.map, Option.elim_none]
  | some listenAddr => simp only [hbind, Except.map, newInternal, Option.elim_some]

theorem load_addr (F : TextFormats) (env : Environment) (config : PersistentDhtConfig) (hfile : file ≠ .unreadable) :
    ∃ de, load F env config file = .ok de ∧
      de.map DhtSerialize.addr = (savedAddr F env file).map (patchAddr config) := by
  cases file with
  | missing => exact ⟨none, rfl, rfl⟩
  | unreadable => exact absurd rfl hfile
  | undecodable => exact ⟨none, rfl, rfl⟩
  | content value =>
    unfold load savedAddr
    cases hread : DhtSerialize.ofJson F env.clock env.clockV6 env.utcNow value with
    | none => exact ⟨none, by simp only [hread], by simp only [hread, Option.map_none]⟩
    | some r =>
      refine ⟨some { r with addr := patchAddr config r.addr }, ?_, ?_⟩
      · simp only [hread]
      · simp only [hread, Option.map_some]

theorem binds_startAddr (hprepared : env.prepared = true) (hfile : file ≠ .unreadable) :
    Binds F env config file (startAddr config (savedAddr F env file)) := by
  intro bind
  obtain ⟨de, hload, haddr⟩ := load_addr F env config hfile
  have hload' : load F { env with bind } config file = .ok de := by
    cases file <;> exact hload
  rw [startAddr, ← haddr]
  unfold create
  rw [hload', hprepared]
  cases de with
  | none => exact withConfig_listenAddr { env with bind } _
  | some de => exact withConfig_listenAddr { env with bind } _

end Starting

/-- A start asks for one address. It honours the configuration and the saved address exactly when
IPv4 is not asked for or the saved file was decoded. -/
theorem create_listenLaw_iff (F : TextFormats) (env : Environment) (config : PersistentDhtConfig) (file : SavedFile)
    (hprepared : env.prepared = true) (hfile : file ≠ .unreadable) :
    ∃ addr, (∀ a, Binds F env config file a ↔ a = addr) ∧ (ListenLaw config (savedAddr F env file) addr ↔
      (config.ipv4Only = true → (savedAddr F env file).isSome = true)) := by
  have hbinds : Binds F env config file (startAddr config (savedAddr F env file)) := binds_startAddr hprepared hfile
  refine ⟨_, fun a => ⟨fun h => h.unique hbinds, ?_⟩, startAddr_listenLaw_iff config (savedAddr F env file)⟩
  rintro rfl
  exact hbinds

def sampleFile : SavedFile := .content (dumpDht sampleFormats 0 (sampleDht (.new 1 none 0)))

theorem sampleFile_listenLaw : ∃ addr, (∀ a, Binds sampleFormats sampleEnvironment ⟨some 6882, true⟩ sampleFile a ↔ a = addr) ∧
    (ListenLaw ⟨some 6882, true⟩ (savedAddr sampleFormats sampleEnvironment sampleFile) addr ↔
      (true = true → (savedAddr sampleFormats sampleEnvironment sampleFile).isSome = true)) :=
  create_listenLaw_iff sampleFormats sampleEnvironment ⟨some 6882, true⟩ sampleFile rfl nofun

/-- On the first start there is no file to patch, and a node that asks for IPv4 gets the default. -/
theorem firstStart_ignores_ipv4Only :
    Binds sampleFormats sampleEnvironment { ipv4Only := true } .missing (unspecifiedV6 0) ∧
      ¬ ListenLaw { ipv4Only := true } (savedAddr sampleFormats sampleEnvironment .missing) (unspecifiedV6 0) := by
  refine ⟨fun bind => withConfig_listenAddr { sampleEnvironment with bind } _, ?_⟩
  intro law
  have hfamily := law.family rfl
  cases hfamily

end Persistence
end LibrtbitDht
