import WasmRdp.Lib.Runs
import WasmRdp.PageConfig
import WasmRdp.TlsReady

/-!
# The page's files and the caches in front of them

`embedded_handler` of `server/src/main.rs` with an HTTP cache: the files of a
build are sent with an `ETag` and `no-cache`, the page itself with `no-store`. A
cache asks again with the tags that it holds, and uses what it has stored under
the tag of a 304. The hash of a file is the build's.

Between any two loads the server may be built anew, the catalog edited, and
responses dropped from the cache; a load uses what the server has at that
moment, or a body with the same hash.

The invariant is that what is stored under a tag has its hash (`Inv`): it came
with that tag, and the tag of a body is the hex of its hash
(`embeddedHandler_tag`, `etagFor_inj`). So a 304 leads to a body with the hash
of the file as it is now. For the 304 the server has to recognize the tags,
which the cache has put into one header: `matched_tags_iff` says that it finds
a tag there exactly when it is one of them. A tag has no comma and no blank,
which `TagChar` is for, so that cutting the header at its commas gives them
back.

The page is not stored and has no tag, so every load of it is the server's
own, with the catalog of that moment. `always_current` has both.
-/

namespace WasmRdp

open Runs

/-! ## The server -/

/-- `HeaderValue::to_str` -/
def headerToStr (value : List UInt8) : Option (List Char) :=
  if value.all fun b => (32 ≤ b.toNat && b.toNat < 127) || b == 9 then
    some (value.map fun b => Char.ofNat b.toNat)
  else none

/-- A server as it was built. -/
structure ServerBuild where
  version : List Char
  /-- `WebAssets::get` -/
  get : List Char → Option (List UInt8)

inductive AssetResponse where
  | notFound
  /-- 304, with `no-cache` -/
  | notModified (etag : List Char)
  /-- 200, with `no-cache` and the tag, or with `no-store` -/
  | ok (etag : Option (List Char)) (body : List UInt8)
  deriving DecidableEq

namespace Assets

def indexHtml : List Char := "index.html".toList

/-- The name of the file that is asked for. -/
def fileName (uriPath : List Char) : List Char :=
  let path := uriPath.dropWhile (· = '/')
  if path = [] then indexHtml else path

/-- The page with the script in front of every `</head>`, or as it is where it is
not UTF-8. -/
def indexPage (version : List Char) (config : AppConfig) (appsFile : Option (List Char))
    (data : List UInt8) : List UInt8 :=
  match String.fromUTF8? ⟨data.toArray⟩ with
  | none => data
  | some html =>
      let vars := configVars version config (loadRemoteApps appsFile config)
      let script := "<script>" ++ String.ofList vars ++ "</script>"
      (html.replace "</head>" (script ++ "</head>")).toUTF8.data.toList

/-- The test of `If-None-Match`. -/
def matched (ifNoneMatch : Option (List UInt8)) (tag : List Char) : Bool :=
  match ifNoneMatch.bind headerToStr with
  | none => false
  | some v => (v.splitOn ',').any fun c => trim c = tag

section
variable (sha256 : List UInt8 → List UInt8)

def etagFor (data : List UInt8) : List Char := '"' :: hexEncode (sha256 data) ++ ['"']

def embeddedHandler (build : ServerBuild) (config : AppConfig) (appsFile : Option (List Char))
    (uriPath : List Char) (ifNoneMatch : Option (List UInt8)) : AssetResponse :=
  let path := fileName uriPath
  match build.get path with
  | none => .notFound
  | some data =>
      if path = indexHtml then .ok none (indexPage build.version config appsFile data)
      else
        let tag := etagFor sha256 data
        if matched ifNoneMatch tag then .notModified tag else .ok (some tag) data

end

end Assets

/-! ## A cache -/

structure StoredResponse where
  uriPath : List Char
  etag : List Char
  body : List UInt8

/-- The server as it is, and what a cache has stored. -/
structure AssetSystem where
  build : ServerBuild
  config : AppConfig
  appsFile : Option (List Char)
  stored : List StoredResponse

inductive AssetEvent where
  /-- The server is stopped and another one started. -/
  | deploy (build : ServerBuild) (config : AppConfig)
  /-- The catalog file is written or removed. -/
  | publish (appsFile : Option (List Char))
  /-- The cache drops responses. -/
  | evict (keep : StoredResponse → Bool)
  | load (uriPath : List Char)

namespace AssetSystem

/-- The tags that are stored for a path. -/
def tags (s : AssetSystem) (uriPath : List Char) : List (List Char) :=
  (s.stored.filter fun r => r.uriPath = uriPath).map StoredResponse.etag

/-- `If-None-Match` of a request. -/
def ifNoneMatch (s : AssetSystem) (uriPath : List Char) : Option (List UInt8) :=
  match s.tags uriPath with
  | [] => none
  | tags => some (([',', ' '].intercalate tags).map fun c => UInt8.ofNat c.toNat)

section
variable (sha256 : List UInt8 → List UInt8)

def response (s : AssetSystem) (uriPath : List Char) : AssetResponse :=
  Assets.embeddedHandler sha256 s.build s.config s.appsFile uriPath (s.ifNoneMatch uriPath)

/-- The body that a load ends with. -/
def used (s : AssetSystem) (uriPath : List Char) : Option (List UInt8) :=
  match s.response sha256 uriPath with
  | .notFound => none
  | .ok _ body => some body
  | .notModified tag =>
      (s.stored.find? fun r => r.uriPath = uriPath ∧ r.etag = tag).map StoredResponse.body

def step (s : AssetSystem) : AssetEvent → AssetSystem
  | .deploy build config => { s with build, config }
  | .publish appsFile => { s with appsFile }
  | .evict keep => { s with stored := s.stored.filter keep }
  | .load uriPath =>
      match s.response sha256 uriPath with
      | .ok (some etag) body => { s with stored := ⟨uriPath, etag, body⟩ :: s.stored }
      | _ => s

/-- A load ends with what the server has now, up to its hash, and what the cache
has of it is not sent again. -/
structure Current (s : AssetSystem) (uriPath : List Char) : Prop where
  notFound : s.build.get (Assets.fileName uriPath) = none → s.used sha256 uriPath = none
  index : ∀ data, s.build.get (Assets.fileName uriPath) = some data →
    Assets.fileName uriPath = Assets.indexHtml →
      s.used sha256 uriPath = some (Assets.indexPage s.build.version s.config s.appsFile data)
  file : ∀ data, s.build.get (Assets.fileName uriPath) = some data →
    Assets.fileName uriPath ≠ Assets.indexHtml →
      ∃ body, s.used sha256 uriPath = some body ∧ sha256 body = sha256 data
  unchanged : ∀ data, s.build.get (Assets.fileName uriPath) = some data →
    Assets.fileName uriPath ≠ Assets.indexHtml →
      (∃ r ∈ s.stored, r.uriPath = uriPath ∧ r.body = data) →
      s.response sha256 uriPath = .notModified (Assets.etagFor sha256 data)

end

end AssetSystem

/-! ## Tags in a header -/

theorem mem_hexEncode {bytes : List UInt8} {c : Char} (h : c ∈ hexEncode bytes) :
    ∃ d < 16, c = hexDigit d := by
  obtain ⟨b, -, hc⟩ := List.mem_flatMap.mp h
  have hb := b.toNat_lt
  simp only [List.mem_cons, List.not_mem_nil, or_false] at hc
  rcases hc with rfl | rfl
  · exact ⟨b.toNat / 16, by omega, rfl⟩
  · exact ⟨b.toNat % 16, by omega, rfl⟩

theorem hexEncode_inj {bs bs' : List UInt8} (h : hexEncode bs = hexEncode bs') : bs = bs' := by
  have hpairs := hexPairs_hexEncode bs
  rw [h, hexPairs_hexEncode] at hpairs
  exact (Except.ok.inj hpairs).symm

/-- A character that is sent as it is, and does not end a tag. -/
def TagChar (c : Char) : Prop := 32 < c.toNat ∧ c.toNat < 127 ∧ c ≠ ','

theorem tagChar_hexDigit : ∀ d < 16, TagChar (hexDigit d) := by
  unfold TagChar
  decide

theorem TagChar.not_isWhitespace {c : Char} (h : TagChar c) : isWhitespace c = false := by
  obtain ⟨hlo, hhi, -⟩ := h
  simp [isWhitespace]
  omega

theorem dropWhile_eq_self {α : Type} {p : α → Bool} {l : List α} (h : ∀ x ∈ l, p x = false) :
    l.dropWhile p = l := by
  cases l with
  | nil => rfl
  | cons x l => rw [List.dropWhile_cons_of_neg (by rw [h x (List.mem_cons_self ..)]; decide)]

section
variable {tag : List Char} {tags : List (List Char)}

theorem trim_tag (h : ∀ c ∈ tag, TagChar c) : trim tag = tag := by
  have hspace : ∀ c ∈ tag, isWhitespace c = false := fun c hc => (h c hc).not_isWhitespace
  rw [trim, dropWhile_eq_self hspace,
    dropWhile_eq_self fun c hc => hspace c (List.mem_reverse.mp hc), List.reverse_reverse]

theorem trim_space_tag (h : ∀ c ∈ tag, TagChar c) : trim (' ' :: tag) = tag :=
  trim_tag h

/-- The tags of a header, cut at its commas. -/
theorem splitOn_tags (h : ∀ t ∈ tag :: tags, ∀ c ∈ t, TagChar c) :
    ([',', ' '].intercalate (tag :: tags)).splitOn ',' = tag :: tags.map (' ' :: ·) := by
  have hcomma : ∀ t ∈ tag :: tags, ',' ∉ t := fun t ht hc => (h t ht ',' hc).2.2 rfl
  induction tags generalizing tag with
  | nil =>
      rw [List.intercalate_singleton]
      exact List.splitOn_eq_singleton (hcomma tag (List.mem_cons_self ..))
  | cons tag' tags ih =>
      have hrest := ih (fun t ht => h t (List.mem_cons_of_mem _ ht))
        fun t ht => hcomma t (List.mem_cons_of_mem _ ht)
      have hjoin : [',', ' '].intercalate (tag :: tag' :: tags) =
          tag ++ ',' :: (' ' :: [',', ' '].intercalate (tag' :: tags)) := by
        rw [List.intercalate_cons_cons, List.append_assoc]
        rfl
      rw [hjoin, List.splitOn_append_cons_self,
        List.splitOn_eq_singleton (hcomma tag (List.mem_cons_self ..)),
        List.splitOn_cons_eq_if_modifyHead, hrest]
      rfl

theorem headerToStr_visible {v : List Char} (h : ∀ c ∈ v, 32 ≤ c.toNat ∧ c.toNat < 127) :
    headerToStr (v.map fun c => UInt8.ofNat c.toNat) = some v := by
  have hnat : ∀ c ∈ v, (UInt8.ofNat c.toNat).toNat = c.toNat := fun c hc => by
    have hlt := (h c hc).2
    rw [UInt8.toNat_ofNat']
    omega
  rw [headerToStr, if_pos, List.map_map]
  · refine congrArg some ?_
    refine (List.map_congr_left fun c hc => ?_).trans (List.map_id v)
    rw [Function.comp_apply, hnat c hc, Char.ofNat_toNat]
    rfl
  · rw [List.all_map, List.all_eq_true]
    intro c hc
    have hvisible := h c hc
    simp only [Function.comp_apply, hnat c hc, Bool.or_eq_true, Bool.and_eq_true,
      decide_eq_true_eq]
    exact .inl hvisible

theorem visible_tags (h : ∀ t ∈ tags, ∀ c ∈ t, TagChar c) :
    ∀ c ∈ [',', ' '].intercalate tags, 32 ≤ c.toNat ∧ c.toNat < 127 := by
  have hvisible : ∀ t ∈ tags, ∀ c ∈ t, 32 ≤ c.toNat ∧ c.toNat < 127 := fun t ht c hc =>
    ⟨(h t ht c hc).1.le, (h t ht c hc).2.1⟩
  clear h
  induction tags with
  | nil => exact fun c hc => absurd hc List.not_mem_nil
  | cons tag tags ih =>
      have htag := hvisible tag (List.mem_cons_self ..)
      cases tags with
      | nil => rwa [List.intercalate_singleton]
      | cons tag' tags =>
          intro c hc
          rw [List.intercalate_cons_cons, List.mem_append, List.mem_append] at hc
          rcases hc with (hc | hc) | hc
          · exact htag c hc
          · simp only [List.mem_cons, List.not_mem_nil, or_false] at hc
            rcases hc with rfl | rfl <;> decide
          · exact ih (fun t ht => hvisible t (List.mem_cons_of_mem _ ht)) c hc

/-- A header of tags has a tag exactly when it is one of them. -/
theorem matched_tags_iff {t : List Char} (h : ∀ t ∈ tag :: tags, ∀ c ∈ t, TagChar c) :
    Assets.matched (some (([',', ' '].intercalate (tag :: tags)).map fun c =>
      UInt8.ofNat c.toNat)) t = true ↔ t ∈ tag :: tags := by
  have htrim : (tag :: tags.map (' ' :: ·)).map trim = tag :: tags := by
    rw [List.map_cons, List.map_map, trim_tag (h tag (List.mem_cons_self ..))]
    refine congrArg _ ((List.map_congr_left fun t ht => ?_).trans (List.map_id tags))
    exact trim_space_tag (h t (List.mem_cons_of_mem _ ht))
  rw [Assets.matched, Option.bind_some, headerToStr_visible (visible_tags h)]
  dsimp only
  rw [splitOn_tags h]
  conv_rhs => rw [← htrim]
  simp only [List.any_eq_true, decide_eq_true_eq, List.mem_map]

end

namespace Assets
variable (sha256 : List UInt8 → List UInt8)

theorem tagChar_etagFor {data : List UInt8} {c : Char} (h : c ∈ etagFor sha256 data) :
    TagChar c := by
  simp only [etagFor, List.mem_append, List.mem_cons, List.not_mem_nil, or_false] at h
  rcases h with (rfl | h) | rfl
  · exact ⟨by decide, by decide, by decide⟩
  · obtain ⟨d, hd, rfl⟩ := mem_hexEncode h
    exact tagChar_hexDigit d hd
  · exact ⟨by decide, by decide, by decide⟩

theorem etagFor_inj {data data' : List UInt8} (h : etagFor sha256 data = etagFor sha256 data') :
    sha256 data = sha256 data' := by
  have happend := (List.cons.inj h).2
  exact hexEncode_inj (List.append_cancel_right happend)

end Assets

/-! ## Loads -/

namespace AssetSystem

/-- What is stored under a tag has its hash. -/
def Inv (sha256 : List UInt8 → List UInt8) (s : AssetSystem) : Prop :=
  ∀ r ∈ s.stored, r.etag = Assets.etagFor sha256 r.body

variable {sha256 : List UInt8 → List UInt8} {s : AssetSystem} {uriPath : List Char}

/-- A body is sent with its own tag. -/
theorem embeddedHandler_tag {build : ServerBuild} {config : AppConfig}
    {appsFile : Option (List Char)} {ifNoneMatch : Option (List UInt8)} {etag : List Char}
    {body : List UInt8}
    (h : Assets.embeddedHandler sha256 build config appsFile uriPath ifNoneMatch =
      .ok (some etag) body) : etag = Assets.etagFor sha256 body := by
  unfold Assets.embeddedHandler at h
  dsimp only at h
  split at h
  · cases h
  · split at h
    · cases h
    · split at h
      · cases h
      · cases h
        rfl

theorem mem_tags {tag : List Char} :
    tag ∈ s.tags uriPath ↔ ∃ r ∈ s.stored, r.uriPath = uriPath ∧ r.etag = tag := by
  simp only [tags, List.mem_map, List.mem_filter, decide_eq_true_eq, and_assoc]

theorem Inv.matched_iff (h : s.Inv sha256) {tag : List Char} :
    Assets.matched (s.ifNoneMatch uriPath) tag = true ↔ tag ∈ s.tags uriPath := by
  have hchars : ∀ t ∈ s.tags uriPath, ∀ c ∈ t, TagChar c := by
    intro t ht c hc
    obtain ⟨r, hr, -, rfl⟩ := mem_tags.mp ht
    rw [h r hr] at hc
    exact Assets.tagChar_etagFor sha256 hc
  rw [ifNoneMatch]
  cases htags : s.tags uriPath with
  | nil =>
      exact ⟨fun hmatched => absurd hmatched Bool.false_ne_true,
        fun hmem => absurd hmem List.not_mem_nil⟩
  | cons tag' tags =>
      rw [htags] at hchars
      exact matched_tags_iff hchars

/-- The answer to a request for a file. -/
theorem Inv.response_file (h : s.Inv sha256) {data : List UInt8}
    (hget : s.build.get (Assets.fileName uriPath) = some data)
    (hname : Assets.fileName uriPath ≠ Assets.indexHtml) :
    s.response sha256 uriPath =
      if Assets.etagFor sha256 data ∈ s.tags uriPath then .notModified (Assets.etagFor sha256 data)
      else .ok (some (Assets.etagFor sha256 data)) data := by
  rw [response, Assets.embeddedHandler, hget]
  dsimp only
  rw [if_neg hname]
  exact if_congr h.matched_iff rfl rfl

theorem Inv.current (h : s.Inv sha256) : s.Current sha256 uriPath where
  notFound := fun hget => by
    have hresponse : s.response sha256 uriPath = .notFound := by
      rw [response, Assets.embeddedHandler, hget]
    rw [used, hresponse]
  index := fun data hget hname => by
    have hresponse : s.response sha256 uriPath =
        .ok none (Assets.indexPage s.build.version s.config s.appsFile data) := by
      rw [response, Assets.embeddedHandler, hget]
      exact if_pos hname
    rw [used, hresponse]
  file := fun data hget hname => by
    rw [used, h.response_file hget hname]
    by_cases hmem : Assets.etagFor sha256 data ∈ s.tags uriPath
    · rw [if_pos hmem]
      dsimp only
      obtain ⟨r, hr, hpath, hetag⟩ := mem_tags.mp hmem
      have hfound := List.find?_isSome (p := fun r : StoredResponse =>
        decide (r.uriPath = uriPath ∧ r.etag = Assets.etagFor sha256 data)).mpr
          ⟨r, hr, decide_eq_true ⟨hpath, hetag⟩⟩
      obtain ⟨r', hr'⟩ := Option.isSome_iff_exists.mp hfound
      have hmatches := List.find?_some hr'
      have hetag' := (of_decide_eq_true hmatches).2
      rw [h r' (List.mem_of_find?_eq_some hr')] at hetag'
      rw [hr']
      exact ⟨r'.body, rfl, Assets.etagFor_inj sha256 hetag'⟩
    · rw [if_neg hmem]
      exact ⟨data, rfl, rfl⟩
  unchanged := fun data hget hname hstored => by
    obtain ⟨r, hr, hpath, hbody⟩ := hstored
    have hmem : Assets.etagFor sha256 data ∈ s.tags uriPath :=
      mem_tags.mpr ⟨r, hr, hpath, by rw [h r hr, hbody]⟩
    rw [h.response_file hget hname, if_pos hmem]

theorem Inv.step (h : s.Inv sha256) (ev : AssetEvent) : (s.step sha256 ev).Inv sha256 := by
  cases ev with
  | deploy build config => exact h
  | publish appsFile => exact h
  | evict keep => exact fun r hr => h r (List.mem_filter.mp hr).1
  | load uriPath =>
      rw [AssetSystem.step]
      split
      · rename_i etag body hresponse
        intro r hr
        rcases List.mem_cons.mp hr with rfl | hr
        · exact embeddedHandler_tag hresponse
        · exact h r hr
      · exact h

/-- Whatever is built, published and dropped between the loads. -/
theorem always_current (sha256 : List UInt8 → List UInt8) (build : ServerBuild) (config : AppConfig)
    (appsFile : Option (List Char)) (events : List AssetEvent) :
    Always (step sha256) (fun s => ∀ uriPath, s.Current sha256 uriPath)
      ⟨build, config, appsFile, []⟩ events := by
  intro pre hpre
  have hinv : Always (step sha256) (Inv sha256) ⟨build, config, appsFile, []⟩ events :=
    always_of_each (c := fun _ _ => True) (fun _ ev _ h _ => h.step ev)
      (fun _ hr => absurd hr List.not_mem_nil) fun _ _ _ => trivial
  exact fun uriPath => (hinv pre hpre).current

end AssetSystem

end WasmRdp
