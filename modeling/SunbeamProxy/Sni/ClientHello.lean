/-
ClientHello messages, and what the parser finds in them.
-/
import SunbeamProxy.Sni.Parser

namespace SunbeamProxy.Sni

open Codec Checked List Slice

/-! ## Messages -/

inductive ServerName where
  | hostName (name : String) (short : (utf8 name).length < 2 ^ 16)
  | other (nameType : UInt8) (name : Bytes) (notHost : nameType ≠ 0) (short : name.length < 2 ^ 16)

namespace ServerName

def nameType : ServerName → UInt8
  | hostName .. => 0
  | other nameType .. => nameType

def name : ServerName → Bytes
  | hostName name _ => utf8 name
  | other _ name .. => name

def host? : ServerName → Option String
  | hostName name _ => some name
  | other .. => none

def encode (n : ServerName) : Bytes := n.nameType :: (beBytes 2 n.name.length ++ n.name)

theorem host?_of_zero {n : ServerName} (h : n.nameType = 0) : ∃ name, n.host? = some name ∧ n.name = utf8 name := by
  cases n with
  | hostName name short => exact ⟨name, rfl, rfl⟩
  | other nameType name notHost short => exact absurd h notHost

theorem host?_of_ne_zero {n : ServerName} (h : n.nameType ≠ 0) : n.host? = none := by
  cases n with
  | hostName name short => exact absurd rfl h
  | other nameType name notHost short => rfl

theorem name_short (n : ServerName) : n.name.length < 2 ^ 16 := by
  cases n with
  | hostName name short => exact short
  | other nameType name notHost short => exact short

end ServerName

structure ServerNameList where
  names : List ServerName
  oneHost : (names.filterMap ServerName.host?).length ≤ 1
  short : (names.flatMap ServerName.encode).length + 2 < 2 ^ 16

inductive Extension where
  | serverName (list : ServerNameList)
  | other (type : ℕ) (data : Bytes) (notServerName : type ≠ 0) (bounded : type < 2 ^ 16) (short : data.length < 2 ^ 16)

namespace Extension

def type : Extension → ℕ
  | serverName _ => 0
  | other type .. => type

def data : Extension → Bytes
  | serverName list => beBytes 2 (list.names.flatMap ServerName.encode).length ++ list.names.flatMap ServerName.encode
  | other _ data .. => data

def serverName? : Extension → Option ServerNameList
  | serverName list => some list
  | other .. => none

variable (e : Extension)

def encode : Bytes := beBytes 2 e.type ++ (beBytes 2 e.data.length ++ e.data)

theorem serverName?_of_zero {e : Extension} (h : e.type = 0) : ∃ list, e.serverName? = some list
    ∧ e.data = beBytes 2 (list.names.flatMap ServerName.encode).length ++ list.names.flatMap ServerName.encode := by
  cases e with
  | serverName list => exact ⟨list, rfl, rfl⟩
  | other type data notServerName bounded short => exact absurd h notServerName

theorem serverName?_of_ne_zero {e : Extension} (h : e.type ≠ 0) : e.serverName? = none := by
  cases e with
  | serverName list => exact absurd rfl h
  | other type data notServerName bounded short => rfl

theorem type_lt : e.type < 2 ^ 16 := by
  cases e with
  | serverName list => exact Nat.two_pow_pos 16
  | other type data notServerName bounded short => exact bounded

theorem data_short : e.data.length < 2 ^ 16 := by
  cases e with
  | serverName list =>
    have := list.short
    rw [data, length_append, length_beBytes]
    omega
  | other type data notServerName bounded short => exact short

end Extension

structure HelloFields where
  recordVersion : UInt8 × UInt8
  version : UInt8 × UInt8
  random : Bytes
  sessionId : Bytes
  cipherSuites : Bytes
  compressionMethods : Bytes
  /-- older clients send no list of extensions at all -/
  extensions : Option (List Extension)

namespace HelloFields

variable (h : HelloFields)

def extensionBytes : Bytes :=
  match h.extensions with
  | some exts => beBytes 2 (exts.flatMap Extension.encode).length ++ exts.flatMap Extension.encode
  | none => []

def fieldBytes : Bytes :=
  UInt8.ofNat h.sessionId.length :: (h.sessionId ++ (beBytes 2 h.cipherSuites.length ++ (h.cipherSuites
    ++ UInt8.ofNat h.compressionMethods.length :: (h.compressionMethods ++ h.extensionBytes))))

def body : Bytes := [h.version.1, h.version.2] ++ (h.random ++ h.fieldBytes)

def payload : Bytes := 0x01 :: (beBytes 3 h.body.length ++ h.body)

def record : Bytes :=
  [0x16, h.recordVersion.1, h.recordVersion.2] ++ (beBytes 2 h.payload.length ++ h.payload)

def serverNames : List ServerNameList := (h.extensions.getD []).filterMap Extension.serverName?

end HelloFields

structure ClientHello extends HelloFields where
  random_length : random.length = 32
  sessionId_short : sessionId.length < 256
  cipherSuites_short : cipherSuites.length < 2 ^ 16
  compressionMethods_short : compressionMethods.length < 256
  oneServerName : toHelloFields.serverNames.length ≤ 1
  fits : toHelloFields.payload.length < 2 ^ 16

theorem head?_of_mem_short {α : Type} {l : List α} {a : α} (hl : l.length ≤ 1) (ha : a ∈ l) : l.head? = some a := by
  match l, hl, ha with
  | [b], _, ha => rw [head?_cons, mem_singleton.1 ha]

theorem fromBeBytes_ofNat {n : ℕ} (h : n < 2 ^ 16) : fromBeBytes (UInt8.ofNat (n / 256)) (UInt8.ofNat n) = n := by
  simp only [fromBeBytes, UInt8.toNat_ofNat']
  omega

theorem toNat_ofNat_of_lt {n : ℕ} (h : n < 256) : (UInt8.ofNat n).toNat = n := by
  simp only [UInt8.toNat_ofNat']
  omega

theorem beBytes_two (n : ℕ) : beBytes 2 n = [UInt8.ofNat (n / 256), UInt8.ofNat n] := rfl

section Fields

variable {buf : Bytes} {α : Type} {f : Slice buf → Parse α} {R : Option α → Steps → Prop} {s : Steps}

variable {hs : Slice buf}

theorem wp_getFrom (front : Bytes) {rest : Bytes} {n : ℕ} (hbytes : hs.bytes = front ++ rest)
    (hn : front.length = n) (h : ∀ t : Slice buf, t.bytes = rest → wp (f t) R s) : wp (ask (hs.getFrom n) >>= f) R s := by
  obtain ⟨t, ht, hrest⟩ := exists_getFrom_of_bytes front hbytes hn
  rw [wp_ask_bind_some ht]
  exact h t hrest

theorem wp_skipField8 {field rest : Bytes} (hbytes : hs.bytes = UInt8.ofNat field.length :: (field ++ rest))
    (hshort : field.length < 256) (h : ∀ t : Slice buf, t.bytes = rest → wp (f t) R s) : wp (skipField8 hs >>= f) R s := by
  have hlen : hs.get 0 = some (UInt8.ofNat field.length) := get_of_bytes [] hbytes rfl
  obtain ⟨t, ht, hrest⟩ := exists_getFrom_of_bytes (UInt8.ofNat field.length :: field) (a := 1 + field.length) hbytes
    (by rw [length_cons, add_comm])
  rw [wp_bind, skipField8, wp_ask_bind_some hlen, toNat_ofNat_of_lt hshort, ht]
  exact h t hrest

theorem wp_skipField16 {field rest : Bytes} (hbytes : hs.bytes = beBytes 2 field.length ++ (field ++ rest))
    (hshort : field.length < 2 ^ 16) (h : ∀ t : Slice buf, t.bytes = rest → wp (f t) R s) : wp (skipField16 hs >>= f) R s := by
  have hhi : hs.get 0 = some (UInt8.ofNat (field.length / 256)) := get_of_bytes [] hbytes rfl
  have hlo : hs.get 1 = some (UInt8.ofNat field.length) := get_of_bytes [_] hbytes rfl
  rw [← append_assoc] at hbytes
  obtain ⟨t, ht, hrest⟩ := exists_getFrom_of_bytes _ (a := 2 + field.length) hbytes (by rw [length_append, length_beBytes])
  rw [wp_bind, skipField16, wp_ask_bind_some hhi, wp_ask_bind_some hlo, fromBeBytes_ofNat hshort, ht]
  exact h t hrest

end Fields

section Loops

variable {buf : Bytes}

theorem asStr_of_bytes {t : Slice buf} {name : String} (h : t.bytes = utf8 name) : (asStr t).map Str.text = some name := by
  have hread : fromUtf8 t.bytes = some name := by rw [h, fromUtf8_utf8]
  rw [asStr]
  split
  · rename_i text htext
    rw [hread] at htext
    exact htext.symm
  · rename_i htext
    rw [hread] at htext
    cases htext

variable {data : Slice buf}

theorem get_three (front : Bytes) {rest : Bytes} {a b c : UInt8} (h : data.bytes = front ++ a :: b :: c :: rest) :
    data.get front.length = some a ∧ data.get (front.length + 1) = some b ∧ data.get (front.length + 2) = some c := by
  refine ⟨get_of_bytes front h rfl, ?_, ?_⟩
  · exact get_of_bytes (front ++ [a]) (by rw [h, append_assoc]; rfl) (by rw [length_append]; rfl)
  · exact get_of_bytes (front ++ [a, b]) (by rw [h, append_assoc]; rfl) (by rw [length_append]; rfl)

theorem walkNames_names {front : Bytes} {names : List ServerName} (fuel : ℕ)
    (hbytes : data.bytes = front ++ names.flatMap ServerName.encode) (hfuel : data.len - front.length < fuel) (s : Steps) :
    wp (walkNames data fuel front.length) (fun r _ => r.map Str.text = names.findSome? ServerName.host?) s := by
  induction fuel generalizing front names s with
  | zero => exact absurd hfuel (Nat.not_lt_zero _)
  | succ fuel ih =>
    have hlen : data.len = front.length + (names.flatMap ServerName.encode).length := by
      rw [← length_bytes, hbytes, length_append]
    cases names with
    | nil =>
      rw [walkNames, if_neg (by rw [hlen, flatMap_nil, length_nil]; omega)]
      rfl
    | cons n names =>
      rw [flatMap_cons, ServerName.encode] at hbytes
      obtain ⟨htype, hhi, hlo⟩ := get_three front hbytes
      have hsplit : data.bytes = (front ++ [n.nameType, UInt8.ofNat (n.name.length / 256), UInt8.ofNat n.name.length])
          ++ (n.name ++ names.flatMap ServerName.encode) := by
        rw [hbytes, append_assoc]
        rfl
      have hentry : data.len = front.length + 3 + n.name.length + (names.flatMap ServerName.encode).length := by
        rw [← length_bytes, hsplit]
        simp only [length_append, length_cons, length_nil]
        omega
      rw [walkNames, if_pos (by omega), wp_modify_bind, wp_check_bind_ok (index_eq_ok htype),
        wp_check_bind_ok (index_eq_ok hhi), wp_check_bind_ok (index_eq_ok hlo)]
      rw [fromBeBytes_ofNat n.name_short, if_neg (by omega)]
      by_cases hhost : n.nameType = 0
      · obtain ⟨name, hname, htext⟩ := ServerName.host?_of_zero hhost
        rcases exists_getRange_of_bytes _ _ (a := front.length + 3) hsplit (by rw [length_append]; rfl) rfl
          with ⟨t, ht, hbytes'⟩
        rw [if_pos hhost, wp_check_bind_ok (indexRange_eq_ok ht), findSome?_cons, hname]
        exact asStr_of_bytes (hbytes'.trans htext)
      · rw [if_neg hhost, findSome?_cons, ServerName.host?_of_ne_zero hhost]
        rw [← append_assoc] at hsplit
        have hrest := ih hsplit (by simp only [length_append, length_cons]; omega)
        simp only [length_append] at hrest
        exact hrest _

theorem parseSniExtension_names {names : List ServerName}
    (hbytes : data.bytes = beBytes 2 (names.flatMap ServerName.encode).length ++ names.flatMap ServerName.encode) (s : Steps) :
    wp (parseSniExtension data) (fun r _ => r.map Str.text = names.findSome? ServerName.host?) s := by
  have hlen : 2 ≤ data.len := by
    rw [← length_bytes, hbytes, length_append]
    exact Nat.le_add_right _ _
  rw [parseSniExtension, if_neg (not_lt.2 hlen)]
  have hwalk := walkNames_names (data.len + 1) hbytes (by omega) s
  rwa [length_beBytes] at hwalk

theorem walkExtensions_extensions {ext : Slice buf} {exts : List Extension} {fuel : ℕ}
    (hbytes : ext.bytes = exts.flatMap Extension.encode) (hfuel : ext.len < fuel) (s : Steps) :
    wp (walkExtensions fuel ext) (fun r _ => r.map Str.text
      = (exts.findSome? Extension.serverName?).bind fun list => list.names.findSome? ServerName.host?) s := by
  induction fuel generalizing ext exts s with
  | zero => exact absurd hfuel (Nat.not_lt_zero _)
  | succ fuel ih =>
    cases exts with
    | nil =>
      have hlen : ext.len = 0 := by rw [← length_bytes, hbytes, flatMap_nil, length_nil]
      rw [walkExtensions, if_pos (by omega)]
      rfl
    | cons e exts =>
      rw [flatMap_cons, Extension.encode] at hbytes
      have h₀ := get_of_bytes [] (i := 0) hbytes rfl
      obtain ⟨h₁, h₂, h₃⟩ := get_three [_] hbytes
      rw [length_singleton] at h₁ h₂ h₃
      have hsplit : ext.bytes = [UInt8.ofNat (e.type / 256), UInt8.ofNat e.type, UInt8.ofNat (e.data.length / 256),
          UInt8.ofNat e.data.length] ++ (e.data ++ exts.flatMap Extension.encode) := hbytes
      have hlen : ext.len = 4 + e.data.length + (exts.flatMap Extension.encode).length := by
        rw [← length_bytes, hsplit]
        simp only [length_append, length_cons, length_nil]
        omega
      obtain ⟨data, hdata, hdatabytes⟩ := exists_getRange_of_bytes _ _ (a := 4) hsplit rfl rfl
      rw [walkExtensions, if_neg (by omega), wp_modify_bind, wp_check_bind_ok (index_eq_ok h₀),
        wp_check_bind_ok (index_eq_ok h₁), wp_check_bind_ok (index_eq_ok h₂),
        wp_check_bind_ok (index_eq_ok h₃)]
      rw [fromBeBytes_ofNat e.type_lt, fromBeBytes_ofNat e.data_short, wp_ask_bind_some hdata]
      by_cases hserver : e.type = 0
      · obtain ⟨list, hlist, hlistbytes⟩ := Extension.serverName?_of_zero hserver
        rw [if_pos hserver, findSome?_cons, hlist]
        exact parseSniExtension_names (hdatabytes.trans hlistbytes) _
      · rw [← append_assoc] at hsplit
        rcases exists_getFrom_of_bytes _ (a := 4 + e.data.length) hsplit (by rw [length_append]; rfl)
          with ⟨rest, hrest, hrestbytes⟩
        have hrestlen := (getFrom_eq_some hrest).2
        rw [if_neg hserver, findSome?_cons, Extension.serverName?_of_ne_zero hserver, wp_ask_bind_some hrest]
        exact ih hrestbytes (by omega) _

end Loops

section Records

variable {α : Type} {s : Steps} (h : ClientHello) (tail : Bytes)

theorem wp_recordPayload {f : Slice (h.record ++ tail) → Parse α} {R : Option α → Steps → Prop}
    (hf : ∀ t : Slice (h.record ++ tail), t.bytes = h.payload → wp (f t) R s) :
    wp (recordPayload (h.record ++ tail) >>= f) R s := by
  have hbytes : (whole (h.record ++ tail)).bytes = [0x16, h.recordVersion.1, h.recordVersion.2,
      UInt8.ofNat (h.payload.length / 256), UInt8.ofNat h.payload.length] ++ (h.payload ++ tail) := by
    rw [bytes_whole, HelloFields.record, beBytes_two]
    simp
  have h₀ := get_of_bytes [] (i := 0) hbytes rfl
  have h₃ := get_of_bytes [_, _, _] (i := 3) hbytes rfl
  have h₄ := get_of_bytes [_, _, _, _] (i := 4) hbytes rfl
  have hlen : (whole (h.record ++ tail)).len = 5 + h.payload.length + tail.length := by
    rw [← length_bytes, hbytes]
    simp only [length_append, length_cons, length_nil]
    omega
  obtain ⟨payload, hpayload, hpayloadbytes⟩ := exists_getRange_of_bytes _ _ (a := 5) hbytes rfl rfl
  rw [wp_bind, recordPayload, wp_ask_bind_some h₀, if_neg (not_not.2 rfl), wp_ask_bind_some h₃, wp_ask_bind_some h₄,
    wp_check_bind_ok (sub_eq_ok (by omega)), fromBeBytes_ofNat h.fits, Nat.min_eq_left (by omega), hpayload]
  exact hf payload hpayloadbytes

theorem wp_helloExtensions {buf : Bytes} {payload : Slice buf} {f : Slice buf → Parse α} {R : Option α → Steps → Prop}
    (hbytes : payload.bytes = h.payload)
    (hf : ∀ hs : Slice buf, hs.bytes = h.extensionBytes → wp (extensionList hs >>= f) R s) :
    wp (helloExtensions payload >>= f) R s := by
  have hfirst : payload.get 0 = some 0x01 := get_of_bytes [] hbytes rfl
  rw [wp_bind, helloExtensions, wp_ask_bind_some hfirst]
  apply wp_getFrom (0x01 :: beBytes 3 h.body.length) hbytes (by rw [length_cons, length_beBytes])
  intro hs hbody
  rw [HelloFields.body, ← append_assoc] at hbody
  apply wp_getFrom _ hbody (by rw [length_append, h.random_length]; rfl)
  intro hs hfields
  apply wp_skipField8 hfields h.sessionId_short
  intro hs hfields
  apply wp_skipField16 hfields h.cipherSuites_short
  intro hs hfields
  apply wp_skipField8 hfields h.compressionMethods_short
  intro hs hextensions
  exact wp_bind.1 (hf hs hextensions)

def ClientHello.sni (h : ClientHello) : Option String :=
  ((h.extensions.getD []).findSome? Extension.serverName?).bind fun list => list.names.findSome? ServerName.host?

theorem extensionBytes_short {exts : List Extension} (hexts : h.extensions = some exts) :
    (exts.flatMap Extension.encode).length < 2 ^ 16 := by
  have hfits := h.fits
  have hle : (exts.flatMap Extension.encode).length ≤ h.payload.length := by
    simp only [HelloFields.payload, HelloFields.body, HelloFields.fieldBytes, HelloFields.extensionBytes, hexts,
      length_append, length_cons]
    omega
  omega

theorem wp_extensionList {buf : Bytes} {hs : Slice buf} (hbytes : hs.bytes = h.extensionBytes) :
    wp (extensionList hs >>= fun ext => walkExtensions (ext.len + 1) ext) (fun r _ => r.map Str.text = h.sni) s := by
  cases hexts : h.extensions with
  | none =>
    have hlen : hs.len = 0 := by rw [← length_bytes, hbytes, HelloFields.extensionBytes, hexts, length_nil]
    rw [wp_bind, extensionList, if_pos (by omega), ClientHello.sni, hexts]
    rfl
  | some exts =>
    have hshort := extensionBytes_short h hexts
    rw [HelloFields.extensionBytes, hexts] at hbytes
    have hhi := get_of_bytes [] (i := 0) hbytes rfl
    have hlo := get_of_bytes [_] (i := 1) hbytes rfl
    have hlen : hs.len = 2 + (exts.flatMap Extension.encode).length := by
      rw [← length_bytes, hbytes, length_append, length_beBytes]
    obtain ⟨ext, hext, hextbytes⟩ := exists_getRange_of_bytes _ (exts.flatMap Extension.encode) (a := 2)
      (by rw [append_nil]; exact hbytes) (length_beBytes _ _) rfl
    rw [wp_bind, extensionList, if_neg (by omega), wp_ask_bind_some hhi, wp_ask_bind_some hlo,
      wp_check_bind_ok (sub_eq_ok (by omega)), fromBeBytes_ofNat hshort, Nat.min_eq_left (by omega), wp_ask, hext]
    refine wp_mono (walkExtensions_extensions hextbytes (Nat.lt_succ_self _) s) ?_
    intro r s' hr
    rw [hr, ClientHello.sni, hexts, Option.getD_some]

def parsedSni (buf : Bytes) : Option String :=
  match parseClientHelloSni buf {} with
  | .ok (some str, _) => some str.text
  | _ => none

theorem parsedSni_record : parsedSni (h.record ++ tail) = h.sni := by
  have hparse : wp (parseClientHelloSni (h.record ++ tail)) (fun r _ => r.map Str.text = h.sni) {} := by
    rw [parseClientHelloSni, extensionsOf, wp_bind_assoc]
    apply wp_recordPayload h tail
    intro payload hpayload
    apply wp_helloExtensions h hpayload
    intro hs hextensions
    exact wp_extensionList h hextensions
  obtain ⟨r, steps, hrun, hr⟩ := wp_iff.1 hparse
  rw [parsedSni, hrun, ← hr]
  cases r <;> rfl

theorem sni_eq : h.sni = h.serverNames.head?.bind fun list => (list.names.filterMap ServerName.host?).head? := by
  simp [ClientHello.sni, HelloFields.serverNames, head?_filterMap]

theorem sni_of_mem {list : ServerNameList} {name : String} (hlist : list ∈ h.serverNames)
    (hname : name ∈ list.names.filterMap ServerName.host?) : h.sni = some name := by
  rw [sni_eq, head?_of_mem_short h.oneServerName hlist, Option.bind_some, head?_of_mem_short list.oneHost hname]

theorem sni_of_serverNames_nil (hnone : h.serverNames = []) : h.sni = none := by
  rw [sni_eq, hnone]
  rfl

end Records

end SunbeamProxy.Sni
