import SiliconHook.Api.Extractors

/-!
# Addresses through trusted proxies

Every trusted proxy appends the address it received the request from. The
outermost one's is resolved as long as the line it is on can be read; a line
with one unreadable byte goes whole, and the count from the right shifts.
-/

namespace SiliconHook

open Text

-- -----------------------------------------------------------------------------
-- Proxies
-- -----------------------------------------------------------------------------

/-- The text of one address: visible, without commas. -/
structure ForwardedAddress where
  text : List Char
  ip : IpAddr
  visible : ∀ c ∈ text, isAsciiGraphic c = true
  noComma : ∀ c ∈ text, c ≠ ','
  parses : parseForwardedIp text = some ip
  nonempty : text ≠ []

def asciiBytes (text : List Char) : List UInt8 := text.map fun c => UInt8.ofNat c.toNat

/-- A trusted proxy: the address it appends, to the last line or as a new one. -/
structure Proxy where
  address : ForwardedAddress
  ownLine : Bool

def Proxy.append (proxy : Proxy) (lines : List (List UInt8)) : List (List UInt8) :=
  match lines.getLast? with
  | none => [asciiBytes proxy.address.text]
  | some last =>
    if proxy.ownLine then lines ++ [asciiBytes proxy.address.text]
    else lines.dropLast ++ [last ++ asciiBytes [',', ' '] ++ asciiBytes proxy.address.text]

/-- The lines that arrive, through the proxies from the outermost on. -/
def arriving (lines : List (List UInt8)) (proxies : List Proxy) : List (List UInt8) :=
  proxies.foldl (fun lines proxy => proxy.append lines) lines

/-- The outermost proxy appends to no line, or to one that can be read. -/
def Readable (lines : List (List UInt8)) (outermost : Proxy) : Prop :=
  outermost.ownLine = true ∨ ∀ last ∈ lines.getLast?, (headerToStr last).isSome = true

variable {lines first : List (List UInt8)} {line : List UInt8} {proxy outermost : Proxy}
  {rest proxies : List Proxy}

-- -----------------------------------------------------------------------------
-- Lines
-- -----------------------------------------------------------------------------

theorem asciiBytes_visible {text : List Char} (h : ∀ c ∈ text, 32 ≤ c.toNat ∧ c.toNat < 127) :
    headerToStr (asciiBytes text) = some text := by
  have hbyte : ∀ c ∈ text, (UInt8.ofNat c.toNat).toNat = c.toNat := by
    intro c hc
    have hlt := (h c hc).2
    simp only [UInt8.toNat_ofNat']
    omega
  have hall : (asciiBytes text).all
      (fun b => (32 ≤ b.toNat && b.toNat < 127) || b.toNat = 9) = true := by
    rw [List.all_eq_true]
    intro b hb
    obtain ⟨c, hc, rfl⟩ := List.mem_map.mp hb
    obtain ⟨hlow, hhigh⟩ := h c hc
    simp [hbyte c hc, hlow, hhigh]
  rw [headerToStr, if_pos hall, asciiBytes, List.map_map, Option.some.injEq]
  refine List.map_congr_left (fun c hc => ?_) |>.trans (List.map_id _)
  rw [Function.comp_apply, hbyte c hc]
  exact Char.ofNat_toNat c

theorem headerToStr_append {a b : List UInt8} {x y : List Char} (ha : headerToStr a = some x)
    (hb : headerToStr b = some y) : headerToStr (a ++ b) = some (x ++ y) := by
  unfold headerToStr at ha hb ⊢
  split at ha
  · rename_i hx
    split at hb
    · rename_i hy
      cases ha
      cases hb
      rw [List.all_append, hx, hy, Bool.and_self, if_pos rfl, List.map_append]
    · cases hb
  · cases ha

theorem headerToStr_append_none {a b : List UInt8} (ha : headerToStr a = none) :
    headerToStr (a ++ b) = none := by
  unfold headerToStr at ha ⊢
  split at ha
  · cases ha
  · rename_i hx
    rw [if_neg]
    rw [List.all_append]
    simp [Bool.eq_false_iff.mpr hx]

theorem ForwardedAddress.readable (address : ForwardedAddress) :
    headerToStr (asciiBytes address.text) = some address.text := by
  refine asciiBytes_visible fun c hc => ?_
  have hgraphic := address.visible c hc
  simp only [isAsciiGraphic, Bool.and_eq_true, decide_eq_true_eq] at hgraphic
  omega

theorem trimBy_address (address : ForwardedAddress) :
    trimBy isWhiteSpace address.text = address.text :=
  trimBy_eq_self fun c hc => isAsciiGraphic_not_whiteSpace (address.visible c hc)

theorem forwardedEntries_address (address : ForwardedAddress) :
    forwardedEntries address.text = [address.text] := by
  have hsplit : splitBy (· = ',') address.text = [address.text] :=
    splitBy_outside fun c hc => decide_eq_false (address.noComma c hc)
  have hempty : address.text.isEmpty = false := by simpa using address.nonempty
  simp [forwardedEntries, hsplit, trimBy_address, hempty]

theorem forwardedEntries_append (value : List Char) (address : ForwardedAddress) :
    forwardedEntries (value ++ [',', ' '] ++ address.text) =
      forwardedEntries value ++ [address.text] := by
  have hsplit : splitBy (· = ',') (value ++ [',', ' '] ++ address.text) =
      splitBy (· = ',') value ++ [' ' :: address.text] := by
    rw [List.append_assoc]
    show splitBy _ (value ++ ',' :: (' ' :: address.text)) = _
    have houtside : ∀ c ∈ ' ' :: address.text, decide (c = ',') = false := by
      intro c hc
      obtain rfl | hc := List.mem_cons.mp hc
      · rfl
      · exact decide_eq_false (address.noComma c hc)
    rw [splitBy_append (by simp), splitBy_outside houtside]
  have htrim : trimBy isWhiteSpace (' ' :: address.text) = address.text := by
    have hspace : (' ' :: address.text).dropWhile isWhiteSpace =
        address.text.dropWhile isWhiteSpace := rfl
    unfold trimBy
    rw [hspace]
    exact trimBy_address address
  have hempty : address.text.isEmpty = false := by simpa using address.nonempty
  rw [forwardedEntries, hsplit, List.map_append, List.filter_append, ← forwardedEntries]
  simp [htrim, hempty]

theorem forwarded_append (first second : List (List UInt8)) :
    forwarded (first ++ second) = forwarded first ++ forwarded second := by
  simp [forwarded]

theorem forwarded_readable {value : List Char} (h : headerToStr line = some value) :
    forwarded [line] = forwardedEntries value := by
  simp [forwarded, h]

theorem forwarded_unreadable (h : headerToStr line = none) : forwarded [line] = [] := by
  simp [forwarded, h]

-- -----------------------------------------------------------------------------
-- Through the proxies
-- -----------------------------------------------------------------------------

theorem append_snoc (proxy : Proxy) (first : List (List UInt8)) (last : List UInt8) :
    proxy.append (first ++ [last]) =
      if proxy.ownLine then first ++ [last] ++ [asciiBytes proxy.address.text]
      else first ++ [last ++ asciiBytes [',', ' '] ++ asciiBytes proxy.address.text] := by
  simp [Proxy.append]

/-- Earlier lines pass every proxy unchanged. -/
theorem arriving_append (first : List (List UInt8)) (last : List UInt8) (proxies : List Proxy)
    (second : List (List UInt8)) :
    arriving (first ++ (second ++ [last])) proxies =
      first ++ arriving (second ++ [last]) proxies := by
  induction proxies generalizing second last with
  | nil => rfl
  | cons proxy rest ih =>
    show arriving (proxy.append (first ++ (second ++ [last]))) rest =
      first ++ arriving (proxy.append (second ++ [last])) rest
    rw [← List.append_assoc, append_snoc, append_snoc]
    split
    · rw [List.append_assoc first second, List.append_assoc first, ih]
    · rw [List.append_assoc first, ih]

theorem append_readable (h : Readable lines proxy) :
    forwarded (proxy.append lines) = forwarded lines ++ [proxy.address.text] ∧
      ∀ last ∈ (proxy.append lines).getLast?, (headerToStr last).isSome = true := by
  have hown := proxy.address.readable
  have hlast := forwarded_readable hown
  rw [forwardedEntries_address] at hlast
  rcases lines.eq_nil_or_concat with rfl | ⟨first, last, rfl⟩
  · refine ⟨hlast, fun line hm => ?_⟩
    obtain rfl : asciiBytes proxy.address.text = line := by
      simpa [Proxy.append] using hm
    rw [hown]
    rfl
  · rw [List.concat_eq_append] at h ⊢
    rw [append_snoc]
    cases howns : proxy.ownLine with
    | true =>
      rw [if_pos rfl, forwarded_append, hlast]
      refine ⟨rfl, fun line hm => ?_⟩
      rw [List.getLast?_concat] at hm
      cases hm
      rw [hown]
      rfl
    | false =>
      obtain hread : ∃ value, headerToStr last = some value := by
        obtain howns' | hread := h
        · rw [howns] at howns'
          cases howns'
        · exact Option.isSome_iff_exists.mp (hread last (by simp))
      obtain ⟨value, hvalue⟩ := hread
      have hdelimiter : headerToStr (asciiBytes [',', ' ']) = some [',', ' '] := by decide
      have hjoined := headerToStr_append (headerToStr_append hvalue hdelimiter) hown
      rw [if_neg Bool.false_ne_true, forwarded_append, forwarded_append,
        forwarded_readable hjoined, forwarded_readable hvalue, forwardedEntries_append,
        List.append_assoc]
      refine ⟨rfl, fun line hm => ?_⟩
      rw [List.getLast?_concat] at hm
      cases hm
      rw [hjoined]
      rfl

theorem arriving_readable (h : ∀ proxy ∈ proxies.head?, Readable lines proxy) :
    forwarded (arriving lines proxies) =
      forwarded lines ++ proxies.map fun proxy => proxy.address.text := by
  induction proxies generalizing lines with
  | nil => simp [arriving]
  | cons proxy rest ih =>
    obtain ⟨hentries, hlast⟩ := append_readable (h proxy rfl)
    show forwarded (arriving (proxy.append lines) rest) = _
    rw [ih fun next _ => .inr hlast, hentries, List.append_assoc]
    rfl

theorem arriving_unreadable {bad bad' : List UInt8} (h : headerToStr bad = none)
    (h' : headerToStr bad' = none) :
    forwarded (arriving [bad] proxies) = forwarded (arriving [bad'] proxies) := by
  induction proxies generalizing bad bad' with
  | nil => exact (forwarded_unreadable h).trans (forwarded_unreadable h').symm
  | cons proxy rest ih =>
    show forwarded (arriving (proxy.append ([] ++ [bad])) rest) =
      forwarded (arriving (proxy.append ([] ++ [bad'])) rest)
    rw [append_snoc, append_snoc]
    split
    · have hskip : ∀ line : List UInt8, headerToStr line = none →
          forwarded (arriving ([] ++ [line] ++ [asciiBytes proxy.address.text]) rest) =
            forwarded (arriving ([] ++ [asciiBytes proxy.address.text]) rest) := by
        intro line hline
        have harriving := arriving_append [line] (asciiBytes proxy.address.text) rest []
        rw [List.nil_append] at harriving
        rw [List.nil_append, harriving, forwarded_append, forwarded_unreadable hline,
          List.nil_append, List.nil_append]
      rw [hskip bad h, hskip bad' h']
    · exact ih (headerToStr_append_none (headerToStr_append_none h))
        (headerToStr_append_none (headerToStr_append_none h'))

-- -----------------------------------------------------------------------------
-- The resolved address
-- -----------------------------------------------------------------------------

theorem clientIp_forwarded {values values' : List (List UInt8)}
    (h : forwarded values = forwarded values') (peer : Option IpAddr) (hops : Nat) :
    clientIp values peer hops = clientIp values' peer hops := by
  simp only [clientIp, h]

/-- As many entries from the right as there are proxies, the outermost one's. -/
theorem clientIp_outermost {peer : Option IpAddr} {ip : IpAddr} (h : Readable lines proxy)
    (hip : clientIp (arriving lines (proxy :: rest)) peer (rest.length + 1) = .ok ip) :
    ip = proxy.address.ip := by
  have hhead : ∀ first ∈ (proxy :: rest).head?, Readable lines first := by
    intro first hm
    obtain rfl : proxy = first := by simpa using hm
    exact h
  have hentries := arriving_readable hhead
  rw [List.map_cons] at hentries
  rw [clientIp, if_neg (Nat.succ_ne_zero _), hentries] at hip
  dsimp only at hip
  split at hip
  · cases hip
  · rw [if_pos (by simp)] at hip
    have hentry : (forwarded lines ++ proxy.address.text ::
        rest.map fun proxy => proxy.address.text)[(forwarded lines ++ proxy.address.text ::
        rest.map fun proxy => proxy.address.text).length - (rest.length + 1)]? =
        some proxy.address.text := by
      rw [List.getElem?_append_right (by simp)]
      simp
    rw [hentry, Option.bind_some, proxy.address.parses] at hip
    exact (Except.ok.inj hip).symm

/-- Beside a line that cannot be read, the outermost proxy's address is not read either. -/
theorem arriving_hidden (h : ¬Readable lines outermost) (address : ForwardedAddress) :
    forwarded (arriving lines ({ outermost with address } :: rest)) =
      forwarded (arriving lines (outermost :: rest)) := by
  rcases lines.eq_nil_or_concat with rfl | ⟨first, last, rfl⟩
  · exact absurd (.inr fun _ hm => by cases hm) h
  · rw [List.concat_eq_append] at h ⊢
    have howns : outermost.ownLine = false :=
      Bool.eq_false_iff.mpr fun howns => h (.inl howns)
    have hread : headerToStr last = none := by
      refine Option.eq_none_iff_forall_ne_some.mpr fun value hvalue => h (.inr fun line hm => ?_)
      obtain rfl : last = line := by simpa using hm
      rw [hvalue]
      rfl
    have harriving : ∀ proxy : Proxy, proxy.ownLine = false →
        forwarded (arriving (first ++ [last]) (proxy :: rest)) = forwarded first ++
          forwarded (arriving [last ++ asciiBytes [',', ' '] ++ asciiBytes proxy.address.text]
            rest) := by
      intro proxy hproxy
      show forwarded (arriving (proxy.append (first ++ [last])) rest) = _
      have hrest := arriving_append first
        (last ++ asciiBytes [',', ' '] ++ asciiBytes proxy.address.text) rest []
      rw [List.nil_append] at hrest
      rw [append_snoc, hproxy, if_neg Bool.false_ne_true, hrest, forwarded_append]
    rw [harriving outermost howns, harriving { outermost with address } howns]
    exact congrArg (forwarded first ++ ·) (arriving_unreadable
      (headerToStr_append_none (headerToStr_append_none hread))
      (headerToStr_append_none (headerToStr_append_none hread)))

def unspecifiedAddress : ForwardedAddress :=
  { text := [':', ':'], ip := .v6 0, visible := List.all_eq_true.mp (by decide)
    noComma := by simp, parses := by decide +kernel, nonempty := by decide }

def loopbackAddress : ForwardedAddress :=
  { text := [':', ':', '1'], ip := .v6 1, visible := List.all_eq_true.mp (by decide)
    noComma := by simp, parses := by decide +kernel, nonempty := by decide }

/-- What the client sends selects the address exactly where the outermost proxy appends
its own to a line that cannot be read. -/
theorem outermost_address_resolved_iff {peer : Option IpAddr}
    (hanswered : ∃ address ip, clientIp (arriving lines ({ outermost with address } :: rest)) peer
      (rest.length + 1) = .ok ip) :
    (∀ address ip, clientIp (arriving lines ({ outermost with address } :: rest)) peer
      (rest.length + 1) = .ok ip → ip = address.ip) ↔ Readable lines outermost := by
  constructor
  · intro hresolved
    by_contra hhidden
    obtain ⟨address, ip, hip⟩ := hanswered
    have hsame : ∀ other : ForwardedAddress, ip = other.ip := by
      intro other
      refine hresolved other ip ?_
      rw [← hip]
      exact clientIp_forwarded ((arriving_hidden hhidden other).trans
        (arriving_hidden hhidden address).symm) peer _
    exact absurd ((hsame unspecifiedAddress).symm.trans (hsame loopbackAddress)) (by decide)
  · intro hreadable address ip hip
    have hreads : Readable lines { outermost with address } := hreadable
    exact clientIp_outermost hreads hip

namespace UnreadableLine

/-- An address of the client's own, then a line with one byte over ASCII. -/
def sent : List (List UInt8) := [asciiBytes "1.2.3.4".toList, [0xff]]

def joining : Proxy := { address := unspecifiedAddress, ownLine := false }

def separate : Proxy := { address := loopbackAddress, ownLine := true }

theorem joining_address_resolved :
    (∀ address ip, clientIp (arriving [asciiBytes "1.2.3.4".toList]
      [{ joining with address }, separate]) none 2 = .ok ip → ip = address.ip) ↔
      Readable [asciiBytes "1.2.3.4".toList] joining :=
  outermost_address_resolved_iff ⟨unspecifiedAddress, .v6 0, by decide +kernel⟩

/-- Two trusted proxies, and the address is the client's choice. -/
theorem sent_address_resolved :
    clientIp (arriving sent [joining, separate]) (some (.v6 1)) 2 = .ok (.v4 0x01020304) ∧
      joining.address.ip = .v6 0 := by
  decide +kernel

end UnreadableLine

end SiliconHook
