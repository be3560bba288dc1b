import ArmOd.Qt.ByteStream

/-!
# The settings of the TCP devices

The four settings types of `Info/` with their stream operators and converters. All four write the
name, the host and the port, and read a type in front of them, which nothing wrote: what is read as
the name starts behind the size of the name.

The interval of the reconnects is not in the stream and is left out.
-/

namespace ArmOd

open ByteReader

inductive BaseSettingsType where
  | typeUnknown
  | TypeNIIPP
  | TypeKTR
  | TypeAIS
  | TypeArmrTcpClient
  deriving DecidableEq, Repr

def localhost : QText := .latin1 "127.0.0.1" (by decide)

structure BaseSetting where
  name : QText := .null
  host : QText := localhost
  port : UInt32 := 1024
  type : BaseSettingsType

namespace BaseSetting

/-- `operator<<`. -/
def put (object : BaseSetting) : List UInt8 :=
  object.name.put ++ object.host.put ++ bigEndian object.port

/-- `operator>>`. -/
def get (object : BaseSetting) : ByteReader BaseSetting := do
  let _ ← readQuint32
  let name ← readQString
  let host ← readQString
  let port ← readQuint32
  return { object with name, host, port }

/-- What an encoder and a decoder make of a value: the name, the host and the port come back, and
nothing of the bytes is left. -/
def RoundTrips (toByteArray : BaseSetting → List UInt8) (fromByteArray : ByteReader BaseSetting)
    (s : BaseSetting) : Prop :=
  let (back, rest) := fromByteArray (toByteArray s)
  back.name.same s.name ∧ back.host.same s.host ∧ back.port = s.port ∧ rest = []

/-- There is neither a name nor a host nor a port. -/
def Blank (s : BaseSetting) : Prop := s.name.isEmpty ∧ s.host.isEmpty ∧ s.port = 0

end BaseSetting

namespace KTRSettings

def new : BaseSetting := { type := .TypeKTR }
def toByteArray : BaseSetting → List UInt8 := BaseSetting.put
def fromByteArray : ByteReader BaseSetting := new.get

end KTRSettings

namespace NIIPPSettings

def new : BaseSetting := { type := .TypeNIIPP }
def toByteArray : BaseSetting → List UInt8 := BaseSetting.put
def fromByteArray : ByteReader BaseSetting := new.get

end NIIPPSettings

namespace AISSettings

def new : BaseSetting := { type := .TypeAIS }
def toByteArray : BaseSetting → List UInt8 := BaseSetting.put
def fromByteArray : ByteReader BaseSetting := new.get

end AISSettings

namespace ArmrTcpClientSettings

/-- The constructor sets the type of the AIS settings. -/
def new : BaseSetting := { type := .TypeAIS }
def toByteArray : BaseSetting → List UInt8 := BaseSetting.put
def fromByteArray : ByteReader BaseSetting := new.get

end ArmrTcpClientSettings

/-! ### What comes back -/

/-- What goes on as itself, some places further and with one value at its end, has this value in
front. -/
theorem eq_replicate_of_append_eq {α : Type} {body front : List α} {c : α} {k : Nat} (hk : 0 < k)
    (hfront : front.length = k) (h : body ++ List.replicate k c = front ++ body) :
    front = List.replicate k c := by
  induction hn : body.length using Nat.strong_induction_on generalizing body with
  | _ n ih =>
      subst hn
      rcases List.append_eq_append_iff.mp h with ⟨more, hmore, htail⟩ | ⟨more, hmore, htail⟩
      · -- the body is shorter than the front
        have hbody : ∀ x ∈ body, x = c := fun x hx =>
          List.eq_of_mem_replicate (htail ▸ List.mem_append_right more hx)
        have hmores : ∀ x ∈ more, x = c := fun x hx =>
          List.eq_of_mem_replicate (htail ▸ List.mem_append_left body hx)
        rw [List.eq_replicate_iff]
        refine ⟨hfront, fun x hx => ?_⟩
        rw [hmore, List.mem_append] at hx
        exact hx.elim (hbody x) (hmores x)
      · -- the body starts with the front
        have hshort : more.length < body.length := by
          rw [hmore, List.length_append]
          omega
        exact ih more.length hshort (htail.symm.trans hmore) rfl

namespace BaseSetting

variable {s : BaseSetting}

theorem get_put (new s : BaseSetting) :
    new.get s.put =
      let n := readQString (utf16 s.name.chars ++ (s.host.put ++ bigEndian s.port))
      let h := readQString n.2
      let p := readQuint32 h.2
      ({ new with name := n.1, host := h.1, port := p.1 }, p.2) := by
  have hput : s.put = bigEndian s.name.header ++
      (utf16 s.name.chars ++ (s.host.put ++ bigEndian s.port)) := by
    simp only [put, QText.put, List.append_assoc]
  have hget : new.get s.put = (fun data =>
      let n := readQString data
      let h := readQString n.2
      let p := readQuint32 h.2
      (({ new with name := n.1, host := h.1, port := p.1 } : BaseSetting), p.2))
        (readQuint32 s.put).2 := rfl
  rw [hget, hput, readQuint32_bigEndian]

theorem header_of_isEmpty {t : QText} (h : t.isEmpty) :
    ∃ c, bigEndian t.header = List.replicate 4 c ∧ (c = 0 ∨ c = 255) := by
  rcases t with ⟨_ | units, hlt⟩
  · exact ⟨255, show bigEndian 0xffffffff = _ by decide, Or.inr rfl⟩
  · cases (show units = [] from h)
    exact ⟨0, show bigEndian (UInt32.ofNat 0) = _ by decide, Or.inl rfl⟩

theorem header_ne_replicate {units : List UInt16} (hlt : units.length < 2 ^ 31) (hne : units ≠ [])
    {c : UInt8} (hc : c = 0 ∨ c = 255) :
    bigEndian (UInt32.ofNat (2 * units.length)) ≠ List.replicate 4 c := by
  have hpos := List.length_pos_iff.mpr hne
  intro heq
  have hsize : (UInt32.ofNat (2 * units.length)).toNat = 2 * units.length := by
    rw [UInt32.toNat_ofNat']
    omega
  rcases hc with rfl | rfl
  · have hzero := bigEndian_injective (heq.trans (show _ = bigEndian 0 by decide))
    rw [hzero] at hsize
    have : (0 : UInt32).toNat = 0 := rfl
    omega
  · have hmax := bigEndian_injective (heq.trans (show _ = bigEndian 0xffffffff by decide))
    rw [hmax] at hsize
    have : (0xffffffff : UInt32).toNat = 4294967295 := rfl
    omega

theorem readQString_four (n : UInt32) : (readQString (bigEndian n)).2 = [] := by
  rw [← List.append_nil (bigEndian n), readQString_bigEndian]
  split
  · rfl
  · rw [readText]
    split
    · rfl
    · exact List.drop_nil

theorem roundTrips_of_blank {new : BaseSetting} (h : s.Blank) : RoundTrips put new.get s := by
  obtain ⟨hname, hhost, hport⟩ := h
  obtain ⟨hread, hrest⟩ := readQString_put s.host (bigEndian s.port)
  rw [RoundTrips, get_put, show s.name.chars = [] from hname, show utf16 [] = [] from rfl,
    List.nil_append]
  dsimp only
  rw [hrest, hport, readQString_four]
  exact ⟨hport ▸ hread.trans (hhost.trans hname.symm), hhost.symm, rfl, rfl⟩

/-- The four bytes of a size that is not empty do not go on as the text they are in front of. -/
theorem not_shifted {t : QText} (hne : ¬ t.isEmpty) {c : UInt8} (hc : c = 0 ∨ c = 255) :
    utf16 t.chars ++ List.replicate 4 c ≠
      bigEndian (UInt32.ofNat (2 * t.chars.length)) ++ utf16 t.chars := fun heq =>
  header_ne_replicate t.size_lt hne hc (eq_replicate_of_append_eq (by decide) rfl heq)

/-- The port is read behind the end of the bytes. -/
theorem blank_of_roundTrips {new : BaseSetting} (h : RoundTrips put new.get s) : s.Blank := by
  rw [RoundTrips, get_put] at h
  dsimp only at h
  generalize hread : readQString (utf16 s.name.chars ++ (s.host.put ++ bigEndian s.port)) = n at h
  generalize hread' : readQString n.2 = n' at h
  obtain ⟨hname, hhost, hport, -⟩ := h
  change n.1.chars = s.name.chars at hname
  change n'.1.chars = s.host.chars at hhost
  change (readQuint32 n'.2).1 = s.port at hport
  by_cases hN : s.name.isEmpty
  · -- the host is read as the name
    rw [show s.name.chars = [] from hN] at hread hname
    obtain ⟨hsame, hrest⟩ := readQString_put s.host (bigEndian s.port)
    change readQString (s.host.put ++ bigEndian s.port) = n at hread
    rw [hread] at hsame hrest
    rw [← hread', hrest, readQString_four] at hport
    exact ⟨hN, hsame.symm.trans hname, hport.symm⟩
  · exfalso
    have hdata := eq_of_readQString (by rw [hread, hname]; exact hN)
    have hsplit : (utf16 s.name.chars ++ bigEndian s.host.header) ++
          (utf16 s.host.chars ++ bigEndian s.port) =
        (bigEndian (UInt32.ofNat (2 * s.name.chars.length)) ++ utf16 s.name.chars) ++ n.2 := by
      rw [hread, hname, QText.put] at hdata
      simpa only [List.append_assoc] using hdata
    obtain ⟨hshift, hrest⟩ := List.append_inj hsplit (by simp [add_comm])
    by_cases hH : s.host.isEmpty
    · obtain ⟨c, hheader, hc⟩ := header_of_isEmpty hH
      exact not_shifted hN hc (hheader ▸ hshift)
    · -- the host starts behind its size as well, and no byte is left for the port
      have hdata' := eq_of_readQString (by rw [hread', hhost]; exact hH)
      rw [hread', hhost, ← hrest, ← List.append_assoc] at hdata'
      have hend : n'.2 = [] := by
        have hlength := congrArg List.length hdata'
        simp only [List.length_append, length_utf16, length_bigEndian] at hlength
        exact List.length_eq_zero_iff.mp (by omega)
      have hzero : bigEndian s.port = List.replicate 4 0 := by
        rw [← hport, hend]
        decide
      rw [hend, List.append_nil, hzero] at hdata'
      exact not_shifted hH (Or.inl rfl) hdata'

theorem roundTrips_put_get {new : BaseSetting} : RoundTrips put new.get s ↔ s.Blank :=
  ⟨blank_of_roundTrips, roundTrips_of_blank⟩

/-- **The settings come back where they are blank**, and nowhere else, whichever device they
are of. -/
theorem roundTrips_iff_blank :
    (RoundTrips KTRSettings.toByteArray KTRSettings.fromByteArray s ↔ s.Blank) ∧
    (RoundTrips NIIPPSettings.toByteArray NIIPPSettings.fromByteArray s ↔ s.Blank) ∧
    (RoundTrips AISSettings.toByteArray AISSettings.fromByteArray s ↔ s.Blank) ∧
    (RoundTrips ArmrTcpClientSettings.toByteArray ArmrTcpClientSettings.fromByteArray s ↔
      s.Blank) :=
  ⟨roundTrips_put_get, roundTrips_put_get, roundTrips_put_get, roundTrips_put_get⟩

/-- The KTR of the configuration: its name is read from the middle of its characters. -/
theorem ktr_settings_lost :
    ¬ RoundTrips KTRSettings.toByteArray KTRSettings.fromByteArray
      { KTRSettings.new with name := .latin1 "KTR_1" (by decide), port := 64300 } := fun h =>
  List.cons_ne_nil _ _ (blank_of_roundTrips h).1

end BaseSetting

end ArmOd
