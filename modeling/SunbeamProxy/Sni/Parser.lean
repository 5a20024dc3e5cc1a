/-
The server name of a TLS ClientHello (`sni.rs`).
-/
import SunbeamProxy.Core.Slice
import SunbeamProxy.Core.Utf8

namespace SunbeamProxy.Sni

open Codec Checked Option

/-! ## Parser -/

structure Steps where
  extensions : ℕ := 0
  names : ℕ := 0
deriving DecidableEq, Repr

/-- `&str`: a slice that is text -/
structure Str (buf : Bytes) extends Slice buf where
  text : String
  encoded : utf8 text = toSlice.bytes

abbrev Parse (α : Type) := Checked Steps α

def fromBeBytes (hi lo : UInt8) : ℕ := hi.toNat * 256 + lo.toNat

def recordTotalLen (buf : Bytes) : Parse ℕ := do
  let hi ← ask ((Slice.whole buf).get 3)
  let lo ← ask ((Slice.whole buf).get 4)
  pure (5 + fromBeBytes hi lo)

variable {buf : Bytes}

def asStr (s : Slice buf) : Option (Str buf) :=
  match h : fromUtf8 s.bytes with
  | some text => some ⟨s, text, utf8_of_fromUtf8 h⟩
  | none => none

def recordPayload (buf : Bytes) : Parse (Slice buf) := do
  let record := Slice.whole buf
  let contentType ← ask (record.get 0)
  if contentType ≠ 0x16 then stop else
  let hi ← ask (record.get 3)
  let lo ← ask (record.get 4)
  let available ← check (sub record.len 5)
  ask (record.getRange 5 (5 + min (fromBeBytes hi lo) available))

variable (hs : Slice buf)

def skipField8 : Parse (Slice buf) := do
  let len ← ask (hs.get 0)
  ask (hs.getFrom (1 + len.toNat))

def skipField16 : Parse (Slice buf) := do
  let hi ← ask (hs.get 0)
  let lo ← ask (hs.get 1)
  ask (hs.getFrom (2 + fromBeBytes hi lo))

def extensionList : Parse (Slice buf) := if hs.len < 2 then stop else do
  let hi ← ask (hs.get 0)
  let lo ← ask (hs.get 1)
  let available ← check (sub hs.len 2)
  ask (hs.getRange 2 (2 + min (fromBeBytes hi lo) available))

def helloExtensions (payload : Slice buf) : Parse (Slice buf) := do
  let handshakeType ← ask (payload.get 0)
  if handshakeType ≠ 0x01 then stop else
  let hs ← ask (payload.getFrom 4)
  let hs ← ask (hs.getFrom 34)
  let hs ← skipField8 hs
  let hs ← skipField16 hs
  let hs ← skipField8 hs
  extensionList hs

def walkNames (data : Slice buf) : ℕ → ℕ → Parse (Str buf)
  | 0, _ => fault .outOfFuel
  | fuel + 1, pos =>
    if pos + 3 ≤ data.len then do
      modify fun steps => { steps with names := steps.names + 1 }
      let nameType ← check (data.index pos)
      let hi ← check (data.index (pos + 1))
      let lo ← check (data.index (pos + 2))
      let pos := pos + 3
      let nameLen := fromBeBytes hi lo
      if data.len < pos + nameLen then stop
      else if nameType = 0x00 then do
        let name ← check (data.indexRange pos (pos + nameLen))
        ask (asStr name)
      else walkNames data fuel (pos + nameLen)
    else stop

def parseSniExtension (data : Slice buf) : Parse (Str buf) := if data.len < 2 then stop else walkNames data (data.len + 1) 2

def walkExtensions : ℕ → Slice buf → Parse (Str buf)
  | 0, _ => fault .outOfFuel
  | fuel + 1, ext =>
    if ext.len < 4 then stop else do
    modify fun steps => { steps with extensions := steps.extensions + 1 }
    let typeHi ← check (ext.index 0)
    let typeLo ← check (ext.index 1)
    let lenHi ← check (ext.index 2)
    let lenLo ← check (ext.index 3)
    let dataLen := fromBeBytes lenHi lenLo
    let data ← ask (ext.getRange 4 (4 + dataLen))
    if fromBeBytes typeHi typeLo = 0x0000 then parseSniExtension data
    else do
      let rest ← ask (ext.getFrom (4 + dataLen))
      walkExtensions fuel rest

def extensionsOf (buf : Bytes) : Parse (Slice buf) := do
  let payload ← recordPayload buf
  helloExtensions payload

def parseClientHelloSni (buf : Bytes) : Parse (Str buf) := do
  let extensions ← extensionsOf buf
  walkExtensions (extensions.len + 1) extensions

/-- the header of an extension at a position: its type and the length of its data -/
def HeaderAt (buf : Bytes) (q type len : ℕ) : Prop :=
  ∃ a b c d, buf[q]? = some a ∧ buf[q + 1]? = some b ∧ buf[q + 2]? = some c ∧ buf[q + 3]? = some d
    ∧ type = fromBeBytes a b ∧ len = fromBeBytes c d

/-- the extension at `q` ends at `q'` -/
def Next (buf : Bytes) (q q' : ℕ) : Prop := ∃ type len, HeaderAt buf q type len ∧ q' = q + 4 + len

/-- the length that the header of the record declares, the header included -/
def DeclaredLen (buf : Bytes) (total : ℕ) : Prop :=
  ∃ hi lo, buf[3]? = some hi ∧ buf[4]? = some lo ∧ total = 5 + fromBeBytes hi lo

theorem get_whole (i : ℕ) : (Slice.whole buf).get i = buf[i]? := by rw [Slice.get, Slice.bytes_whole]

theorem recordTotalLen_wp (buf : Bytes) (s : Steps) :
    wp (recordTotalLen buf) (fun r s' => s' = s ∧ ∀ total, r = some total ↔ DeclaredLen buf total) s := by
  have hmissing : ∀ {i : ℕ}, (Slice.whole buf).get i = none → i = 3 ∨ i = 4 → ∀ total, ¬DeclaredLen buf total := by
    intro i hi hcases total h
    obtain ⟨hi', lo, h₃, h₄, _⟩ := h
    rw [get_whole] at hi
    rcases hcases with rfl | rfl
    · rw [h₃] at hi
      cases hi
    · rw [h₄] at hi
      cases hi
  apply wp_ask_bind
  · intro hnone
    exact ⟨rfl, fun total => iff_of_false (some_ne_none total).symm (hmissing hnone (.inl rfl) total)⟩
  intro hi hhi
  apply wp_ask_bind
  · intro hnone
    exact ⟨rfl, fun total => iff_of_false (some_ne_none total).symm (hmissing hnone (.inr rfl) total)⟩
  intro lo hlo
  rw [get_whole] at hhi hlo
  refine ⟨rfl, ?_⟩
  intro total
  rw [some.injEq]
  apply Iff.intro
  · intro htotal
    exact ⟨hi, lo, hhi, hlo, htotal.symm⟩
  · intro h
    obtain ⟨hi', lo', hhi', hlo', rfl⟩ := h
    rw [hhi, some.injEq] at hhi'
    rw [hlo, some.injEq] at hlo'
    rw [hhi', hlo']

/-! ## Safety -/

theorem recordPayload_wp (s : Steps) : wp (recordPayload buf) (fun r s' => s' = s ∧ ∀ payload, r = some payload →
      ∃ total, DeclaredLen buf total ∧ 5 ≤ payload.start ∧ payload.start + payload.len ≤ total) s := by
  apply wp_ask_bind
  · intro _
    exact ⟨rfl, by simp⟩
  intro contentType _
  split_ifs
  · exact ⟨rfl, by simp⟩
  apply wp_ask_bind
  · intro _
    exact ⟨rfl, by simp⟩
  intro hi hhi
  apply wp_ask_bind
  · intro _
    exact ⟨rfl, by simp⟩
  intro lo hlo
  -- the fifth byte is there, so the header can be taken off the length
  rw [wp_check_bind_ok (sub_eq_ok (Slice.lt_len_of_get hlo))]
  refine ⟨rfl, ?_⟩
  intro payload hpayload
  obtain ⟨hstart, hlen, _⟩ := Slice.getRange_eq_some hpayload
  rw [get_whole] at hhi hlo
  refine ⟨_, ⟨hi, lo, hhi, hlo, rfl⟩, ?_, ?_⟩
  · rw [hstart]
    exact Nat.le_add_left _ _
  · have : (Slice.whole buf).start = 0 := rfl
    omega

/-- a step that leaves the counts alone and ends inside the slice it was given -/
def Narrows (x : Parse (Slice buf)) : Prop :=
  ∀ s, wp x (fun r s' => s' = s ∧ ∀ t, r = some t → t.Within hs) s

theorem narrows_getFrom (a : ℕ) : Narrows hs (ask (hs.getFrom a)) := by
  intro s
  exact ⟨rfl, fun t ht => Slice.within_getFrom ht⟩

theorem narrows_stop : Narrows hs stop := by
  intro s
  exact ⟨rfl, by simp⟩

theorem narrows_ask {α : Type} {hs : Slice buf} {a : Option α} {f : α → Parse (Slice buf)}
    (h : ∀ v, a = some v → Narrows hs (f v)) : Narrows hs (ask a >>= f) := by
  intro s
  apply wp_ask_bind
  · intro _
    exact ⟨rfl, by simp⟩
  · intro v hv
    exact h v hv s

theorem Narrows.bind {hs : Slice buf} {x : Parse (Slice buf)} {f : Slice buf → Parse (Slice buf)} (hx : Narrows hs x)
    (hf : ∀ t, Narrows t (f t)) : Narrows hs (x >>= f) := by
  intro s
  rw [wp_bind]
  refine wp_mono (hx s) ?_
  intro r s' hr
  obtain ⟨rfl, hr⟩ := hr
  cases r with
  | none => exact ⟨rfl, by simp⟩
  | some t =>
    refine wp_mono (hf t s') ?_
    intro r' s'' hr'
    exact ⟨hr'.1, fun u hu => (hr'.2 u hu).trans (hr t rfl)⟩

theorem skipField8_narrows : Narrows hs (skipField8 hs) := narrows_ask fun _ _ => narrows_getFrom hs _

theorem skipField16_narrows : Narrows hs (skipField16 hs) :=
  narrows_ask fun _ _ => narrows_ask fun _ _ => narrows_getFrom hs _

theorem extensionList_narrows : Narrows hs (extensionList hs) := by
  rw [extensionList]
  split_ifs with hlen
  · exact narrows_stop hs
  apply narrows_ask
  intro hi _
  apply narrows_ask
  intro lo _ s
  rw [wp_check_bind_ok (sub_eq_ok (not_lt.1 hlen))]
  exact ⟨rfl, fun t ht => Slice.within_getRange ht⟩

theorem helloExtensions_narrows (payload : Slice buf) : Narrows payload (helloExtensions payload) := by
  apply narrows_ask
  intro handshakeType _
  split_ifs
  · exact narrows_stop payload
  apply (narrows_getFrom payload 4).bind
  intro hs
  apply (narrows_getFrom hs 34).bind
  intro hs
  apply (skipField8_narrows hs).bind
  intro hs
  apply (skipField16_narrows hs).bind
  intro hs
  apply (skipField8_narrows hs).bind
  intro hs
  exact extensionList_narrows hs

theorem asStr_eq_some {s : Slice buf} {str : Str buf} (h : asStr s = some str) : str.toSlice = s := by
  rw [asStr] at h
  split at h
  · cases h
    rfl
  · cases h

theorem walkNames_wp (data : Slice buf) {fuel pos : ℕ} (hfuel : data.len - pos < fuel) (s : Steps) :
    wp (walkNames data fuel pos) (fun r s' => s'.extensions = s.extensions
      ∧ 3 * s'.names ≤ 3 * s.names + (data.len - pos) ∧ ∀ str, r = some str → str.toSlice.Within data) s := by
  induction fuel generalizing pos s with
  | zero => exact absurd hfuel (Nat.not_lt_zero _)
  | succ fuel ih =>
    rw [walkNames]
    split_ifs with hmore
    · obtain ⟨nameType, htype⟩ := Slice.exists_get (s := data) (i := pos) (by omega)
      obtain ⟨hi, hhi⟩ := Slice.exists_get (s := data) (i := pos + 1) (by omega)
      obtain ⟨lo, hlo⟩ := Slice.exists_get (s := data) (i := pos + 2) (by omega)
      rw [wp_modify_bind, wp_check_bind_ok (Slice.index_eq_ok htype), wp_check_bind_ok (Slice.index_eq_ok hhi),
        wp_check_bind_ok (Slice.index_eq_ok hlo)]
      dsimp only
      split_ifs with hshort hname
      · refine ⟨rfl, ?_, by simp⟩
        dsimp only
        omega
      · rcases Slice.exists_getRange (s := data) (a := pos + 3) (b := pos + 3 + fromBeBytes hi lo) (by omega) (by omega)
          with ⟨name, hrange⟩
        rw [wp_check_bind_ok (Slice.indexRange_eq_ok hrange)]
        refine ⟨rfl, ?_, ?_⟩
        · dsimp only
          omega
        · intro str hstr
          rw [asStr_eq_some hstr]
          exact Slice.within_getRange hrange
      · refine wp_mono (ih (by omega) _) ?_
        intro r s' hr
        dsimp only at hr
        exact ⟨hr.1, by omega, hr.2.2⟩
    · exact ⟨rfl, by omega, by simp⟩

theorem parseSniExtension_wp (data : Slice buf) (s : Steps) :
    wp (parseSniExtension data) (fun r s' => s'.extensions = s.extensions
      ∧ 3 * s'.names ≤ 3 * s.names + data.len ∧ ∀ str, r = some str → str.toSlice.Within data) s := by
  rw [parseSniExtension]
  split_ifs
  · exact ⟨rfl, by omega, by simp⟩
  · refine wp_mono (walkNames_wp data (by omega) s) ?_
    intro r s' hr
    exact ⟨hr.1, by omega, hr.2.2⟩

/-- a name from the data of the server name extension that a walk from a slice's beginning meets -/
def FromServerName (ext name : Slice buf) : Prop :=
  ∃ q len, Relation.ReflTransGen (Next buf) ext.start q ∧ HeaderAt buf q 0 len
    ∧ q + 4 + len ≤ ext.start + ext.len ∧ q + 4 ≤ name.start ∧ name.start + name.len ≤ q + 4 + len

theorem le_of_reaches {q q' : ℕ} (h : Relation.ReflTransGen (Next buf) q q') : q ≤ q' := by
  induction h with
  | refl => exact le_rfl
  | tail _ hnext ih =>
    obtain ⟨_, len, _, rfl⟩ := hnext
    omega

theorem FromServerName.within {ext name : Slice buf} (h : FromServerName ext name) : name.Within ext := by
  obtain ⟨q, len, hreach, _, hend, hname⟩ := h
  have hq := le_of_reaches hreach
  unfold Slice.Within
  omega

theorem FromServerName.of_next {ext rest name : Slice buf} (hnext : Next buf ext.start rest.start) (hrest : rest.Within ext)
    (h : FromServerName rest name) : FromServerName ext name := by
  obtain ⟨q, len, hreach, hheader, hend, hname⟩ := h
  exact ⟨q, len, .head hnext hreach, hheader, hend.trans hrest.2, hname⟩

theorem exists_header {ext : Slice buf} (h : 4 ≤ ext.len) :
    ∃ typeHi typeLo lenHi lenLo, ext.get 0 = some typeHi ∧ ext.get 1 = some typeLo ∧ ext.get 2 = some lenHi
      ∧ ext.get 3 = some lenLo ∧ HeaderAt buf ext.start (fromBeBytes typeHi typeLo) (fromBeBytes lenHi lenLo) := by
  obtain ⟨typeHi, h₀⟩ := Slice.exists_get (s := ext) (i := 0) (by omega)
  obtain ⟨typeLo, h₁⟩ := Slice.exists_get (s := ext) (i := 1) (by omega)
  obtain ⟨lenHi, h₂⟩ := Slice.exists_get (s := ext) (i := 2) (by omega)
  obtain ⟨lenLo, h₃⟩ := Slice.exists_get (s := ext) (i := 3) (by omega)
  refine ⟨typeHi, typeLo, lenHi, lenLo, h₀, h₁, h₂, h₃, ?_⟩
  rw [Slice.get_eq _ (by omega)] at h₀ h₁ h₂ h₃
  exact ⟨typeHi, typeLo, lenHi, lenLo, h₀, h₁, h₂, h₃, rfl, rfl⟩

theorem walkExtensions_wp {fuel : ℕ} (ext : Slice buf) (hfuel : ext.len < fuel) (s : Steps) :
    wp (walkExtensions fuel ext) (fun r s' => 4 * s'.extensions ≤ 4 * s.extensions + ext.len
      ∧ 3 * s'.names ≤ 3 * s.names + ext.len ∧ ∀ str, r = some str → FromServerName ext str.toSlice) s := by
  induction fuel generalizing ext s with
  | zero => exact absurd hfuel (Nat.not_lt_zero _)
  | succ fuel ih =>
    rw [walkExtensions]
    split_ifs with hshort
    · exact ⟨by omega, by omega, by simp⟩
    obtain ⟨typeHi, typeLo, lenHi, lenLo, h₀, h₁, h₂, h₃, hheader⟩ := exists_header (not_lt.1 hshort)
    rw [wp_modify_bind, wp_check_bind_ok (Slice.index_eq_ok h₀), wp_check_bind_ok (Slice.index_eq_ok h₁),
      wp_check_bind_ok (Slice.index_eq_ok h₂), wp_check_bind_ok (Slice.index_eq_ok h₃)]
    apply wp_ask_bind
    · intro _
      refine ⟨?_, ?_, by simp⟩
      all_goals
        dsimp only
        omega
    intro data hdata
    obtain ⟨hstart, hlen, hend⟩ := Slice.getRange_eq_some hdata
    split_ifs with hserver
    · refine wp_mono (parseSniExtension_wp data _) ?_
      intro r s' hr
      dsimp only at hr
      refine ⟨by omega, by omega, ?_⟩
      intro str hstr
      have hin := hr.2.2 str hstr
      unfold Slice.Within at hin
      rw [hserver] at hheader
      exact ⟨ext.start, _, .refl, hheader, by omega, by omega, by omega⟩
    · apply wp_ask_bind
      · intro _
        refine ⟨?_, ?_, by simp⟩
        all_goals
          dsimp only
          omega
      intro rest hrest
      obtain ⟨hreststart, hrestlen⟩ := Slice.getFrom_eq_some hrest
      refine wp_mono (ih rest (by omega) _) ?_
      intro r s' hr
      dsimp only at hr
      refine ⟨by omega, by omega, ?_⟩
      intro str hstr
      exact (hr.2.2 str hstr).of_next ⟨_, _, hheader, by rw [hreststart, add_assoc]⟩ (Slice.within_getFrom hrest)

theorem extensionsOf_wp (buf : Bytes) (s : Steps) : wp (extensionsOf buf) (fun r s' => s' = s ∧ ∀ ext, r = some ext →
      ∃ total, DeclaredLen buf total ∧ 5 ≤ ext.start ∧ ext.start + ext.len ≤ total) s := by
  rw [extensionsOf, wp_bind]
  refine wp_mono (recordPayload_wp s) ?_
  intro r s' hr
  obtain ⟨rfl, hr⟩ := hr
  cases r with
  | none => exact ⟨rfl, by simp⟩
  | some payload =>
    obtain ⟨total, htotal, hstart, hend⟩ := hr payload rfl
    refine wp_mono (helloExtensions_narrows payload s') ?_
    intro r' s'' hr'
    refine ⟨hr'.1, ?_⟩
    intro ext hext
    have hin := hr'.2 ext hext
    exact ⟨total, htotal, hstart.trans hin.1, hin.2.trans hend⟩

/-- no buffer makes the parser fault; its loops go round as often as the buffer has room for; and a name it gives is a part of
the first record, inside one server name extension -/
theorem parse_safe (buf : Bytes) : (∃ total, recordTotalLen buf {} = .ok (total, {}))
    ∧ ∃ name steps, parseClientHelloSni buf {} = .ok (name, steps)
      ∧ steps.extensions ≤ buf.length / 4 ∧ steps.names ≤ buf.length / 3
      ∧ ∀ str, name = some str → ∃ ext total, extensionsOf buf {} = .ok (some ext, {}) ∧ DeclaredLen buf total
        ∧ FromServerName ext str.toSlice ∧ 5 ≤ str.start ∧ str.start + str.len ≤ total := by
  apply And.intro
  · obtain ⟨total, s, hrun, rfl, _⟩ := wp_iff.1 (recordTotalLen_wp buf {})
    exact ⟨total, hrun⟩
  obtain ⟨found, s, hfound, rfl, hext⟩ := wp_iff.1 (extensionsOf_wp buf {})
  have hwalk : wp (parseClientHelloSni buf) (fun r s' => 4 * s'.extensions ≤ buf.length ∧ 3 * s'.names ≤ buf.length
      ∧ ∀ str, r = some str → ∃ ext, found = some ext ∧ FromServerName ext str.toSlice) {} := by
    rw [parseClientHelloSni, wp_bind, wp, hfound]
    cases found with
    | none => exact ⟨Nat.zero_le _, Nat.zero_le _, by simp⟩
    | some ext =>
      have hbound := ext.bounded
      refine wp_mono (walkExtensions_wp ext (Nat.lt_succ_self _) {}) ?_
      intro r s' hr
      dsimp only at hr
      exact ⟨by omega, by omega, fun str hstr => ⟨ext, rfl, hr.2.2 str hstr⟩⟩
  obtain ⟨name, steps, hrun, hextensions, hnames, hname⟩ := wp_iff.1 hwalk
  refine ⟨name, steps, hrun, by omega, by omega, ?_⟩
  intro str hstr
  obtain ⟨ext, rfl, hfrom⟩ := hname str hstr
  obtain ⟨total, htotal, hstart, hend⟩ := hext ext rfl
  have hin := hfrom.within
  exact ⟨ext, total, hfound, htotal, hfrom, hstart.trans hin.1, hin.2.trans hend⟩

end SunbeamProxy.Sni
