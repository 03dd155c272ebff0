import WasmRdp.Lib.Json
import WasmRdp.Lib.ScriptCode
import WasmRdp.Lib.ScriptData

/-!
# The configuration in the page

The server puts a script in front of `</head>` of `index.html` that sets the
page's globals: the version, the name of the application, and the catalog of
published programs, as a JSON array that is written by hand (`server/src/main.rs`).
Of the texts in it, quotes and backslashes are escaped.

That keeps each text inside its own string literal, as long as it has no line
end. It keeps neither control characters out of the JSON nor markup out of the
script element: a name that holds `</script>` ends the element
(`survives_iff`).

Three readers go over the same characters, and each is a library of its own:
the tokenizer of the browser (`ScriptData`), the lexer of the script
(`ScriptCode`) and, for the catalog, JSON. To see what each makes of a text
the script is taken apart into segments, code or a text between quotes; the
code holds no markup and no start of a comment (`Clean`), so that all depends
on the texts.

An escaped text is the same as the plain one to the tokenizer (`run_esc`), one
literal to the lexer unless a line end cuts it off (`codeOf_esc`), and a
string to JSON unless it has a control character (`string_esc`). For the whole
script these become `element_iff`, `code_iff` and `json_iff`. `HarmlessTexts`
is their conjunction in terms of the texts. These are read one after the other
there, because one of them may open a section that the next ones are in.
-/

namespace WasmRdp

open ScriptData ScriptCode

/-! ## The catalog -/

/-- `char::is_whitespace` -/
def isWhitespace (c : Char) : Bool :=
  (0x9 ≤ c.toNat && c.toNat ≤ 0xD) || (0x2000 ≤ c.toNat && c.toNat ≤ 0x200A) ||
    [0x20, 0x85, 0xA0, 0x1680, 0x2028, 0x2029, 0x202F, 0x205F, 0x3000].contains c.toNat

/-- `str::trim` -/
def trim (s : List Char) : List Char :=
  ((s.dropWhile isWhitespace).reverse.dropWhile isWhitespace).reverse

/-- `s.split_once(sep)` -/
def splitOnce (sep : Char) (s : List Char) : Option (List Char × List Char) :=
  match s.span (· ≠ sep) with
  | (before, _ :: after) => some (before, after)
  | (_, []) => none

/-- `str::lines`: all parts but the last were ended by a line feed. -/
def lines (text : List Char) : List (List Char) :=
  let parts := text.splitOn '\n'
  parts.dropLast.map (fun line => if line.getLast? = some '\r' then line.dropLast else line) ++
    parts.getLast?.toList.filter (· ≠ [])

structure AppConfig where
  appName : Option (List Char)
  enableTextClipboard : Bool
  enableFileClipboard : Bool
  enableRemoteApp : Bool
  /-- Raw `Name=program` entries. -/
  remoteApps : List (List Char)

/-- The catalog file as it was read, if it could be. -/
def loadRemoteApps (appsFile : Option (List Char)) (config : AppConfig) :
    Bool × List (List Char) :=
  match appsFile with
  | none => (config.enableRemoteApp, config.remoteApps)
  | some text =>
      let entries := ((lines text).map trim).filter fun l =>
        !l.isEmpty && !(['#'].isPrefixOf l) && l.contains '='
      if entries = [] then (config.enableRemoteApp, config.remoteApps) else (true, entries)

/-! ## Escaping -/

/-- `s.replace(c, text)` -/
def replaceChar (c : Char) (text s : List Char) : List Char :=
  s.flatMap fun x => if x = c then text else [x]

def esc (s : List Char) : List Char :=
  replaceChar '"' ['\\', '"'] (replaceChar '\\' ['\\', '\\'] s)

/-- The names and the programs; an entry without `=` is skipped. -/
def catalog (entries : List (List Char)) : List (List Char × List Char) :=
  (entries.filterMap (splitOnce '=')).map fun e => (trim e.1, trim e.2)

def appJson (app : List Char × List Char) : List Char :=
  ["\x7b\"name\":\"".toList, esc app.1, "\",\"program\":\"".toList, esc app.2,
    "\"\x7d".toList].flatten

def remoteAppsJson (entries : List (List Char)) : List Char :=
  '[' :: [','].intercalate ((catalog entries).map appJson) ++ [']']

/-! ## The script -/

def boolText (b : Bool) : List Char := if b then "true".toList else "false".toList

/-- What stands between the tags of the script. -/
def configVars (version : List Char) (config : AppConfig) (remoteApps : Bool × List (List Char)) :
    List Char :=
  (["window.__IB_VERSION=\"".toList, esc version,
      "\";window.__IB_TEXT_CLIPBOARD=".toList, boolText config.enableTextClipboard,
      ";window.__IB_FILE_CLIPBOARD=".toList, boolText config.enableFileClipboard, ";".toList] ++
    (match config.appName with
      | some name => ["window.__APP_NAME=\"".toList, esc name, "\";".toList]
      | none => []) ++
    ["window.__IB_REMOTE_APP=".toList, boolText remoteApps.1, ";".toList,
      "window.__IB_REMOTE_APPS=".toList, remoteAppsJson remoteApps.2, ";".toList]).flatten

/-- The page, with `html` cut at its `</head>`. -/
def embeddedHandler (version : List Char) (config : AppConfig) (appsFile : Option (List Char))
    (html : List Char × List Char) : List Char :=
  let vars := configVars version config (loadRemoteApps appsFile config)
  [html.1, "<script>".toList, vars, "</script>".toList, "</head>".toList, html.2].flatten

/-! ## What should survive -/

def appValue (app : List Char × List Char) : JsonText.Value :=
  .object [(Utf16.encode "name".toList, .string (Utf16.encode app.1)),
    (Utf16.encode "program".toList, .string (Utf16.encode app.2))]

/-- The catalog as a script reads it. -/
def catalogValue (apps : List (List Char × List Char)) : JsonText.Value :=
  .array (apps.map appValue)

/-- The same configuration with empty texts. -/
def AppConfig.blank (config : AppConfig) : AppConfig :=
  { config with appName := config.appName.map fun _ => [] }

/-- The catalog is read as what it is, the element ends at its own end tag, and
no text is code: the code is that of a configuration with empty texts. -/
structure Survives (version : List Char) (config : AppConfig) (appsFile : Option (List Char)) :
    Prop where
  json : let entries := (loadRemoteApps appsFile config).2
    JsonText.decode (remoteAppsJson entries) = some (catalogValue (catalog entries))
  element : ∀ html : List Char × List Char,
    scriptText ((embeddedHandler version config appsFile html).drop
        (html.1 ++ "<script>".toList).length) =
      some (configVars version config (loadRemoteApps appsFile config))
  code : let remoteApps := loadRemoteApps appsFile config
    ∃ code, codeOf .code (configVars version config remoteApps) = some code ∧
      codeOf .code (configVars [] config.blank
        (remoteApps.1, (catalog remoteApps.2).map fun _ => ['='])) = some code

/-- The texts of the configuration, in the order in which they are written. -/
def configTexts (version : List Char) (config : AppConfig) (apps : List (List Char × List Char)) :
    List (List Char) :=
  version :: config.appName.toList ++ apps.flatMap fun app => [app.1, app.2]

/-- No control character in the catalog, no line end in the other texts, and
no end tag in any of them, read as script data, nor a section that would hide
the element's own one. -/
structure HarmlessTexts (version : List Char) (config : AppConfig)
    (apps : List (List Char × List Char)) : Prop where
  controls : ∀ app ∈ apps, ∀ c ∈ app.1 ++ app.2, JsonText.isControl c = false
  lineEnds : ∀ s ∈ version :: config.appName.toList, ∀ c ∈ s, isLineEnd c = false
  markup : ∃ q, readAll .data (configTexts version config apps) = some q ∧ q ≠ .doubleEscaped

/-! ## Escaped texts -/

/-- What a character is written as. -/
def escChar (c : Char) : List Char :=
  if c = '\\' then ['\\', '\\'] else if c = '"' then ['\\', '"'] else [c]

theorem replaceChar_cons (x : Char) (text : List Char) (c : Char) (s : List Char) :
    replaceChar x text (c :: s) = (if c = x then text else [c]) ++ replaceChar x text s :=
  List.flatMap_cons

theorem replaceChar_append (x : Char) (text s t : List Char) :
    replaceChar x text (s ++ t) = replaceChar x text s ++ replaceChar x text t :=
  List.flatMap_append

theorem esc_cons (c : Char) (s : List Char) : esc (c :: s) = escChar c ++ esc s := by
  have hsplit : esc (c :: s) =
      replaceChar '"' ['\\', '"'] (if c = '\\' then ['\\', '\\'] else [c]) ++ esc s := by
    unfold esc
    rw [replaceChar_cons, replaceChar_append]
  rw [hsplit, escChar]
  split
  · rfl
  · rw [replaceChar_cons]
    split <;> rfl

theorem inert_quote : Inert '"' := ⟨by decide, by decide, by decide, by decide, by decide, rfl, rfl⟩

theorem inert_backslash : Inert '\\' :=
  ⟨by decide, by decide, by decide, by decide, by decide, rfl, rfl⟩

/-- Escaping does not change what the text is to the tokenizer. -/
theorem run_esc (q : State) (s : List Char) : run q (esc s) = run q s := by
  induction s generalizing q with
  | nil => rfl
  | cons c s ih =>
      rw [esc_cons, run_append, run_cons q c s]
      have hchar : run q (escChar c) = step q c := by
        rw [escChar]
        split
        · next hslash =>
          rw [hslash, run_cons, step_ground inert_backslash, Option.bind_some, run_cons,
            step_ground inert_backslash, ground_ground]
          rfl
        · split
          · next hquote =>
            rw [hquote, run_cons, step_ground inert_backslash, Option.bind_some, run_cons,
              step_ground inert_quote, step_ground inert_quote, ground_ground]
            rfl
          · rw [run_cons]
            cases step q c <;> rfl
      rw [hchar]
      exact congrArg _ (funext ih)

/-- An escaped text is one literal, if no line end cuts it off. -/
theorem codeOf_esc (s rest : List Char) : codeOf .literal (esc s ++ '"' :: rest) =
    if s.any isLineEnd then none else (codeOf .code rest).map ('"' :: ·) := by
  induction s with
  | nil => exact codeOf_close rest
  | cons c s ih =>
      rw [esc_cons, List.append_assoc, escChar]
      split
      · next hslash =>
        subst hslash
        exact (codeOf_escape '\\' _).trans ih
      · next hslash =>
        split
        · next hquote =>
          subst hquote
          exact (codeOf_escape '"' _).trans ih
        · next hquote =>
          rw [List.singleton_append, codeOf_inside hquote hslash, ih, List.any_cons]
          cases isLineEnd c <;> rfl

/-- An escaped text is a JSON string, if it has no control character. -/
theorem string_esc (s rest : List Char) : JsonText.string (esc s ++ '"' :: rest) =
    if s.any JsonText.isControl then none else some (Utf16.encode s, rest) := by
  induction s with
  | nil => exact JsonText.string_quote rest
  | cons c s ih =>
      have hcons : Utf16.encode (c :: s) = Utf16.encodeChar c ++ Utf16.encode s :=
        List.flatMap_cons
      rw [esc_cons, List.append_assoc, escChar, hcons, List.any_cons]
      -- an escape is no control character
      have hescape {e : Char} (he : e = '"' ∨ e = '\\') :
          JsonText.string (['\\', e] ++ (esc s ++ '"' :: rest)) =
            if (JsonText.isControl e || s.any JsonText.isControl) = true then none
            else some (Utf16.encodeChar e ++ Utf16.encode s, rest) := by
        have hplain : JsonText.isControl e = false := by rcases he with rfl | rfl <;> rfl
        rw [List.cons_append, List.singleton_append, JsonText.string_escaped he, ih, hplain,
          Bool.false_or]
        split <;> rfl
      split
      · next hslash =>
        subst hslash
        exact hescape (.inr rfl)
      · next hslash =>
        split
        · next hquote =>
          subst hquote
          exact hescape (.inl rfl)
        · next hquote =>
          rw [List.singleton_append]
          cases hcontrol : JsonText.isControl c with
          | true => rw [JsonText.string_control hcontrol, Bool.true_or, if_pos rfl]
          | false =>
              rw [JsonText.string_plain hquote hslash hcontrol, ih, Bool.false_or]
              split <;> rfl

/-! ## Joined lists -/

theorem flatMap_intercalate {α β : Type} (f : α → List β) (sep : List α) (ls : List (List α)) :
    (sep.intercalate ls).flatMap f = (sep.flatMap f).intercalate (ls.map (List.flatMap f)) := by
  induction ls with
  | nil => rfl
  | cons l ls ih =>
      cases ls with
      | nil => simp [List.intercalate]
      | cons l' ls =>
          rw [List.map_cons] at ih
          rw [List.map_cons, List.map_cons, List.intercalate_cons_cons, List.intercalate_cons_cons,
            List.flatMap_append, List.flatMap_append, ih]

theorem mem_intercalate {α : Type} {sep : List α} {ls : List (List α)} {a : α}
    (h : a ∈ sep.intercalate ls) : a ∈ sep ∨ ∃ l ∈ ls, a ∈ l := by
  induction ls with
  | nil => cases h
  | cons l ls ih =>
      cases ls with
      | nil =>
          rw [List.intercalate_singleton] at h
          exact .inr ⟨l, List.mem_cons_self, h⟩
      | cons l' ls =>
          rw [List.intercalate_cons_cons, List.mem_append, List.mem_append] at h
          rcases h with (h | h) | h
          · exact .inr ⟨l, List.mem_cons_self, h⟩
          · exact .inl h
          · rcases ih h with h | ⟨m, hm, ha⟩
            · exact .inl h
            · exact .inr ⟨m, List.mem_cons_of_mem _ hm, ha⟩

theorem intercalate_nil_left {α : Type} (ls : List (List α)) : [].intercalate ls = ls.flatten := by
  induction ls with
  | nil => rfl
  | cons l ls ih =>
      cases ls with
      | nil => simp [List.intercalate]
      | cons l' ls =>
          rw [List.intercalate_cons_cons, ih, List.append_nil, ← List.flatten_cons]

theorem length_le_intercalate {α : Type} (a : α) (l : List α) (ls : List (List α)) :
    ls.length ≤ ([a].intercalate (l :: ls)).length := by
  induction ls generalizing l with
  | nil => exact Nat.zero_le _
  | cons l' ls ih =>
      have htail := ih l'
      rw [List.intercalate_cons_cons, List.length_append, List.length_append, List.length_singleton,
        List.length_cons]
      omega

/-! ## The script in segments -/

/-- Code, or a text between quotes. -/
inductive Segment where
  | code (s : List Char)
  | quoted (s : List Char)

namespace Segment

def render : Segment → List Char
  | code s => s
  | quoted s => '"' :: esc s ++ ['"']

def text? : Segment → Option (List Char)
  | code _ => none
  | quoted s => some s

/-- What of a segment is code. -/
def codePart : Segment → List Char
  | code s => s
  | quoted _ => ['"', '"']

/-- The code holds no markup, and neither a quote nor the start of a comment. -/
def Clean : Segment → Prop
  | code s => s.all isPlain = true
  | quoted _ => True

theorem clean_append {s t : List Char} (hs : (code s).Clean) (ht : (code t).Clean) :
    (code (s ++ t)).Clean := by
  rw [Clean, List.all_append, Bool.and_eq_true]
  exact ⟨hs, ht⟩

def app (app : List Char × List Char) : List Segment :=
  [code "\x7b".toList, quoted "name".toList, code ":".toList, quoted app.1, code ",".toList,
    quoted "program".toList, code ":".toList, quoted app.2, code "\x7d".toList]

def config (version : List Char) (config : AppConfig) (remoteApps : Bool × List (List Char)) :
    List Segment :=
  [code "window.__IB_VERSION=".toList, quoted version,
    code (";window.__IB_TEXT_CLIPBOARD=".toList ++ boolText config.enableTextClipboard ++
      ";window.__IB_FILE_CLIPBOARD=".toList ++ boolText config.enableFileClipboard ++
      ";".toList)] ++
  (match config.appName with
    | some name => [code "window.__APP_NAME=".toList, quoted name, code ";".toList]
    | none => []) ++
  [code ("window.__IB_REMOTE_APP=".toList ++ boolText remoteApps.1 ++
      ";window.__IB_REMOTE_APPS=[".toList)] ++
  [code ",".toList].intercalate ((catalog remoteApps.2).map app) ++ [code "];".toList]

end Segment

/-- What a part of the segments makes of a list with separators. -/
theorem flatMap_apps {β : Type} (f : Segment → List β) (apps : List (List Char × List Char)) :
    ([Segment.code ",".toList].intercalate (apps.map Segment.app)).flatMap f =
      (f (.code ",".toList)).intercalate (apps.map fun app => (Segment.app app).flatMap f) := by
  rw [flatMap_intercalate, List.map_map, List.flatMap_singleton]
  rfl

theorem render_app (app : List Char × List Char) :
    (Segment.app app).flatMap Segment.render = appJson app := by
  have hname : esc "name".toList = "name".toList := rfl
  have hprogram : esc "program".toList = "program".toList := rfl
  unfold Segment.app appJson
  simp only [List.flatMap_cons, List.flatMap_nil, Segment.render, hname, hprogram,
    List.flatten_cons, List.flatten_nil, List.append_assoc, List.cons_append, List.nil_append]
  rfl

theorem render_config (version : List Char) (config : AppConfig)
    (remoteApps : Bool × List (List Char)) :
    (Segment.config version config remoteApps).flatMap Segment.render =
      configVars version config remoteApps := by
  have hcatalog : ([Segment.code ",".toList].intercalate
      ((catalog remoteApps.2).map Segment.app)).flatMap Segment.render =
        [','].intercalate ((catalog remoteApps.2).map appJson) := by
    rw [flatMap_apps]
    exact congrArg _ (List.map_congr_left fun app _ => render_app app)
  -- the source writes the quotes and brackets with their neighbours
  have hversion : "window.__IB_VERSION=\"".toList = "window.__IB_VERSION=".toList ++ ['"'] := rfl
  have hflags : "\";window.__IB_TEXT_CLIPBOARD=".toList =
      '"' :: ";window.__IB_TEXT_CLIPBOARD=".toList := rfl
  have hname : "window.__APP_NAME=\"".toList = "window.__APP_NAME=".toList ++ ['"'] := rfl
  have hnameEnd : "\";".toList = '"' :: ";".toList := rfl
  have hopen : ";window.__IB_REMOTE_APPS=[".toList =
      ";".toList ++ "window.__IB_REMOTE_APPS=".toList ++ ['['] := rfl
  have hclose : "];".toList = ']' :: ";".toList := rfl
  unfold Segment.config configVars
  rw [List.flatMap_append, List.flatMap_append, hcatalog, hversion, hflags, hname, hnameEnd, hopen,
    hclose]
  cases config.appName <;>
    simp only [List.flatMap_cons, List.flatMap_nil, Segment.render, remoteAppsJson,
      List.flatten_cons, List.flatten_nil, List.append_assoc, List.cons_append, List.nil_append]

/-! ## The script element -/

theorem plain_ground {s : List Char} (hs : s.all isPlain = true) (q : State) :
    run q.ground s = some q.ground := by
  refine run_ground (fun c hc => ?_) q
  have hplain := List.all_eq_true.mp hs c hc
  constructor
  · rintro rfl
    cases hplain
  · rintro rfl
    cases hplain

/-- To the tokenizer a segment is its text. -/
theorem run_segment {g : Segment} (hg : g.Clean) (q : State) :
    run q.ground g.render = readAll q.ground g.text?.toList := by
  cases g with
  | code s => exact plain_ground hg q
  | quoted s =>
      have hopen : step q.ground '"' = some q.ground := by
        rw [step_ground inert_quote, ground_ground]
      rw [Segment.render, List.cons_append, run_cons, hopen, Option.bind_some, run_append, run_esc]
      cases hrun : run q.ground s with
      | none => simp [Segment.text?, readAll, hrun]
      | some q' => simp [Segment.text?, readAll, hrun, run_cons, step_ground inert_quote]

theorem run_segments {segs : List Segment} (hsegs : ∀ g ∈ segs, g.Clean) (q : State) :
    run q.ground (segs.flatMap Segment.render) =
      readAll q.ground (segs.flatMap fun g => g.text?.toList) := by
  induction segs generalizing q with
  | nil => rfl
  | cons g segs ih =>
      rw [List.flatMap_cons, List.flatMap_cons, run_append, readAll_append,
        run_segment (hsegs g List.mem_cons_self)]
      cases hread : readAll q.ground g.text?.toList with
      | none => rfl
      | some q' =>
          rw [Option.bind_some, Option.bind_some, ← readAll_ground (ground_ground q) hread]
          exact ih (fun g hg => hsegs g (List.mem_cons_of_mem _ hg)) q'

theorem clean_app (app : List Char × List Char) : ∀ g ∈ Segment.app app, g.Clean := by
  unfold Segment.app
  simp only [List.forall_mem_cons]
  exact ⟨rfl, trivial, rfl, trivial, rfl, trivial, rfl, trivial, rfl, List.forall_mem_nil _⟩

theorem clean_config (version : List Char) (config : AppConfig)
    (remoteApps : Bool × List (List Char)) :
    ∀ g ∈ Segment.config version config remoteApps, g.Clean := by
  have hbool (b : Bool) : (Segment.code (boolText b)).Clean := by cases b <;> rfl
  have hflags : (Segment.code (";window.__IB_TEXT_CLIPBOARD=".toList ++
      boolText config.enableTextClipboard ++ ";window.__IB_FILE_CLIPBOARD=".toList ++
      boolText config.enableFileClipboard ++ ";".toList)).Clean :=
    Segment.clean_append (Segment.clean_append (Segment.clean_append
      (Segment.clean_append rfl (hbool _)) rfl) (hbool _)) rfl
  have hremote : (Segment.code ("window.__IB_REMOTE_APP=".toList ++ boolText remoteApps.1 ++
      ";window.__IB_REMOTE_APPS=[".toList)).Clean :=
    Segment.clean_append (Segment.clean_append rfl (hbool _)) rfl
  have happs : ∀ g ∈ [Segment.code ",".toList].intercalate ((catalog remoteApps.2).map Segment.app),
      g.Clean := by
    intro g hg
    rcases mem_intercalate hg with hg | ⟨l, hl, hg⟩
    · obtain rfl := List.mem_singleton.mp hg
      rfl
    · obtain ⟨app, -, rfl⟩ := List.mem_map.mp hl
      exact clean_app app g hg
  unfold Segment.config
  simp only [List.forall_mem_append, List.forall_mem_cons]
  refine ⟨⟨⟨⟨⟨rfl, trivial, hflags, List.forall_mem_nil _⟩, ?_⟩, hremote, List.forall_mem_nil _⟩,
    happs⟩, rfl, List.forall_mem_nil _⟩
  cases config.appName with
  | none => exact List.forall_mem_nil _
  | some name =>
      simp only [List.forall_mem_cons]
      exact ⟨rfl, trivial, rfl, List.forall_mem_nil _⟩

theorem texts_config (version : List Char) (config : AppConfig)
    (remoteApps : Bool × List (List Char)) :
    (Segment.config version config remoteApps).flatMap (fun g => g.text?.toList) =
      version :: config.appName.toList ++ (catalog remoteApps.2).flatMap fun app =>
        ["name".toList, app.1, "program".toList, app.2] := by
  unfold Segment.config
  rw [List.flatMap_append, List.flatMap_append, List.flatMap_append, List.flatMap_append,
    flatMap_apps]
  cases config.appName <;>
    simp [Segment.text?, Segment.app, intercalate_nil_left, List.flatMap_def]

/-- The keys do not matter to the tokenizer. -/
theorem readAll_keys (apps : List (List Char × List Char)) (q : State) :
    readAll q.ground (apps.flatMap fun app => ["name".toList, app.1, "program".toList, app.2]) =
      readAll q.ground (apps.flatMap fun app => [app.1, app.2]) := by
  have hkey {key : List Char} (hkey : key.all isPlain = true) (q : State)
      (ss : List (List Char)) : readAll q.ground (key :: ss) = readAll q.ground ss := by
    rw [readAll, List.foldlM_cons, plain_ground hkey, Option.map_some, ground_ground]
    rfl
  have htext (s : List Char) (ss ts : List (List Char)) (h : ∀ q : State,
      readAll q.ground ss = readAll q.ground ts) (q : State) :
      readAll q.ground (s :: ss) = readAll q.ground (s :: ts) := by
    rw [readAll, readAll, List.foldlM_cons, List.foldlM_cons]
    cases run q.ground s with
    | none => rfl
    | some q' => exact h q'
  induction apps generalizing q with
  | nil => rfl
  | cons app apps ih =>
      rw [List.flatMap_cons, List.flatMap_cons]
      refine (hkey rfl q _).trans ?_
      refine htext app.1 _ _ (fun q => ?_) q
      refine (hkey rfl q _).trans ?_
      exact htext app.2 _ _ (fun q => ih q) q

/-- The script takes the tokenizer where its texts do. -/
theorem run_config (version : List Char) (config : AppConfig)
    (remoteApps : Bool × List (List Char)) :
    run .data (configVars version config remoteApps) =
      readAll .data (configTexts version config (catalog remoteApps.2)) := by
  have hrun := run_segments (clean_config version config remoteApps) .data
  rw [render_config, texts_config] at hrun
  refine hrun.trans ?_
  rw [configTexts, readAll_append, readAll_append]
  change (readAll .data _).bind _ = _
  cases hread : readAll .data (version :: config.appName.toList) with
  | none => rfl
  | some q =>
      have hq : q.ground = q := readAll_ground rfl hread
      rw [Option.bind_some, Option.bind_some, ← hq]
      exact readAll_keys (catalog remoteApps.2) q

/-- The element ends at its own end tag exactly when no text has one that
counts, or hides the element's own. -/
theorem element_iff (version : List Char) (config : AppConfig) (appsFile : Option (List Char)) :
    (∀ html : List Char × List Char, scriptText ((embeddedHandler version config appsFile html).drop
          (html.1 ++ "<script>".toList).length) =
        some (configVars version config (loadRemoteApps appsFile config))) ↔
      ∃ q, readAll .data (configTexts version config (catalog (loadRemoteApps appsFile config).2)) =
        some q ∧ q ≠ .doubleEscaped := by
  have hrun := run_config version config (loadRemoteApps appsFile config)
  have hground : ∀ q, run .data (configVars version config (loadRemoteApps appsFile config)) =
      some q → q.ground = q := fun q hq => readAll_ground rfl (hrun.symm.trans hq)
  have hpage (html : List Char × List Char) : (embeddedHandler version config appsFile html).drop
      (html.1 ++ "<script>".toList).length =
        configVars version config (loadRemoteApps appsFile config) ++
          (endTag ++ ("</head>".toList ++ html.2)) := by
    have htag : "</script>".toList = endTag := rfl
    unfold embeddedHandler
    dsimp only
    rw [List.flatten_cons, List.flatten_cons, ← List.append_assoc, List.drop_left, htag]
    simp only [List.flatten_cons, List.flatten_nil, List.append_nil]
  rw [← hrun]
  constructor
  · intro h
    rw [← scriptText_iff hground ("</head>".toList ++ []), ← hpage ([], [])]
    exact h ([], [])
  · intro h html
    rw [hpage]
    exact (scriptText_iff hground _).mpr h

/-! ## The code -/

/-- The code of the script, if no text has a line end. -/
theorem codeOf_segments {segs : List Segment} (hsegs : ∀ g ∈ segs, g.Clean) :
    codeOf .code (segs.flatMap Segment.render) =
      if (segs.flatMap fun g => g.text?.toList).any (·.any isLineEnd) then none
      else some (segs.flatMap Segment.codePart) := by
  induction segs with
  | nil => rfl
  | cons g segs ih =>
      have htail := ih fun g hg => hsegs g (List.mem_cons_of_mem _ hg)
      rw [List.flatMap_cons, List.flatMap_cons, List.flatMap_cons]
      cases g with
      | code s =>
          have hplain : ∀ c ∈ s, isPlain c = true :=
            List.all_eq_true.mp (hsegs (.code s) List.mem_cons_self)
          have htext : (Segment.code s).text?.toList = [] := rfl
          rw [Segment.render, codeOf_append hplain, htail, htext, List.nil_append]
          cases (segs.flatMap fun g => g.text?.toList).any (·.any isLineEnd) <;> rfl
      | quoted s =>
          have htext : (Segment.quoted s).text?.toList = [s] := rfl
          rw [Segment.render, List.cons_append, List.cons_append, codeOf_open, List.append_assoc,
            List.singleton_append, codeOf_esc, htail, htext, List.singleton_append, List.any_cons]
          cases s.any isLineEnd with
          | true => rfl
          | false =>
              rw [Bool.false_or]
              cases (segs.flatMap fun g => g.text?.toList).any (·.any isLineEnd) <;> rfl

theorem catalog_blank {α : Type} (l : List α) :
    catalog (l.map fun _ => ['=']) = l.map fun _ => ([], []) := by
  induction l with
  | nil => rfl
  | cons x l ih => exact congrArg (([], []) :: ·) ih

/-- The code does not depend on the texts. -/
theorem codePart_blank (version : List Char) (config : AppConfig)
    (remoteApps : Bool × List (List Char)) :
    (Segment.config [] config.blank
        (remoteApps.1, (catalog remoteApps.2).map fun _ => ['='])).flatMap Segment.codePart =
      (Segment.config version config remoteApps).flatMap Segment.codePart := by
  obtain ⟨code, happ⟩ : ∃ code, ∀ app, (Segment.app app).flatMap Segment.codePart = code :=
    ⟨(Segment.app ([], [])).flatMap Segment.codePart, fun _ => rfl⟩
  unfold Segment.config
  rw [catalog_blank]
  simp only [List.flatMap_append, flatMap_apps, happ]
  rw [List.map_map, AppConfig.blank]
  cases config.appName <;> rfl

/-- The keys have no line end. -/
theorem any_keys (apps : List (List Char × List Char)) :
    (apps.flatMap fun app => ["name".toList, app.1, "program".toList, app.2]).any
        (·.any isLineEnd) =
      (apps.flatMap fun app => [app.1, app.2]).any (·.any isLineEnd) := by
  have hname : "name".toList.any isLineEnd = false := rfl
  have hprogram : "program".toList.any isLineEnd = false := rfl
  simp only [List.any_flatMap, List.any_cons, hname, hprogram, Bool.false_or]

/-- No text is code, or cuts a literal off, exactly when none has a line end. -/
theorem code_iff (version : List Char) (config : AppConfig)
    (remoteApps : Bool × List (List Char)) :
    (∃ code, codeOf .code (configVars version config remoteApps) = some code ∧
        codeOf .code (configVars [] config.blank
          (remoteApps.1, (catalog remoteApps.2).map fun _ => ['='])) = some code) ↔
      (configTexts version config (catalog remoteApps.2)).any (·.any isLineEnd) = false := by
  have hcode := codeOf_segments (clean_config version config remoteApps)
  have hblank := codeOf_segments (clean_config [] config.blank
    (remoteApps.1, (catalog remoteApps.2).map fun _ => ['=']))
  have hnone : (configTexts [] config.blank (catalog ((catalog remoteApps.2).map
      fun _ => ['=']))).any (·.any isLineEnd) = false := by
    rw [catalog_blank, configTexts, AppConfig.blank]
    cases config.appName <;> simp
  rw [render_config, texts_config, List.any_append, any_keys, ← List.any_append, ← configTexts]
    at hcode hblank
  rw [hcode, hblank, hnone, codePart_blank]
  cases (configTexts version config (catalog remoteApps.2)).any (·.any isLineEnd) with
  | false => exact iff_of_true ⟨_, rfl, rfl⟩ rfl
  | true =>
      constructor
      · rintro ⟨code, h, -⟩
        cases h
      · intro h
        cases h

/-! ## The catalog's JSON -/

theorem appJson_append (app : List Char × List Char) (rest : List Char) :
    appJson app ++ rest = '\x7b' :: '"' :: ("name".toList ++ '"' :: ':' :: '"' :: (esc app.1 ++
      '"' :: ',' :: '"' :: ("program".toList ++ '"' :: ':' :: '"' :: (esc app.2 ++
        '"' :: '\x7d' :: rest)))) := by
  unfold appJson
  simp only [List.flatten_cons, List.flatten_nil, List.append_assoc, List.nil_append]
  rfl

/-- One program, if neither text has a control character. -/
theorem value_app (fuel : Nat) (app : List Char × List Char) (rest : List Char) :
    JsonText.value (fuel + 4) (appJson app ++ rest) =
      if (app.1 ++ app.2).any JsonText.isControl then none else some (appValue app, rest) := by
  have hname (t : List Char) : JsonText.string ("name".toList ++ '"' :: t) =
      some (Utf16.encode "name".toList, t) := string_esc "name".toList t
  have hprogram (t : List Char) : JsonText.string ("program".toList ++ '"' :: t) =
      some (Utf16.encode "program".toList, t) := string_esc "program".toList t
  have htext {s : List Char} (hs : s.any JsonText.isControl = false) (t : List Char) :
      JsonText.string (esc s ++ '"' :: t) = some (Utf16.encode s, t) := by
    rw [string_esc, hs]
    rfl
  have hcontrol {s : List Char} (hs : s.any JsonText.isControl = true) (t : List Char) :
      JsonText.string (esc s ++ '"' :: t) = none := by
    rw [string_esc, hs]
    rfl
  rw [appJson_append, JsonText.value_object, List.any_append]
  cases h₁ : app.1.any JsonText.isControl with
  | true =>
      rw [JsonText.members_none (hname _) (hcontrol h₁ _)]
      rfl
  | false =>
      rw [JsonText.members_comma (hname _) (htext h₁ _), Bool.false_or]
      cases h₂ : app.2.any JsonText.isControl with
      | true =>
          rw [JsonText.members_none (hprogram _) (hcontrol h₂ _)]
          rfl
      | false =>
          rw [JsonText.members_close (hprogram _) (htext h₂ _)]
          rfl

/-- Each program takes one call, and the last one its four. -/
theorem elements_apps (app : List Char × List Char) (apps : List (List Char × List Char))
    {fuel : Nat} (hfuel : apps.length + 5 ≤ fuel) (rest : List Char) :
    JsonText.elements fuel ([','].intercalate ((app :: apps).map appJson) ++ ']' :: rest) =
      if (app :: apps).any (fun app => (app.1 ++ app.2).any JsonText.isControl) then none
      else some ((app :: apps).map appValue, rest) := by
  induction apps generalizing app fuel with
  | nil =>
      obtain ⟨fuel, rfl⟩ := Nat.exists_eq_add_of_le' hfuel
      have hvalue := value_app fuel app (']' :: rest)
      rw [List.map_singleton, List.intercalate_singleton, List.any_cons, List.any_nil,
        Bool.or_false]
      cases hcontrol : (app.1 ++ app.2).any JsonText.isControl with
      | true =>
          rw [hcontrol] at hvalue
          exact JsonText.elements_none hvalue
      | false =>
          rw [hcontrol] at hvalue
          exact JsonText.elements_close hvalue
  | cons app' apps ih =>
      obtain ⟨fuel, rfl⟩ := Nat.exists_eq_add_of_le' hfuel
      have htail := ih app' (show apps.length + 5 ≤ fuel + apps.length + 1 + 4 by omega)
      have hvalue := value_app (fuel + apps.length + 1) app
        (',' :: ([','].intercalate ((app' :: apps).map appJson) ++ ']' :: rest))
      have hsplit : [','].intercalate ((app :: app' :: apps).map appJson) ++ ']' :: rest =
          appJson app ++ ',' :: ([','].intercalate ((app' :: apps).map appJson) ++
            ']' :: rest) := by
        rw [List.map_cons, List.map_cons, List.intercalate_cons_cons, List.append_assoc,
          List.append_assoc, List.singleton_append]
      rw [hsplit, List.any_cons]
      cases hcontrol : (app.1 ++ app.2).any JsonText.isControl with
      | true =>
          rw [hcontrol] at hvalue
          exact JsonText.elements_none hvalue
      | false =>
          rw [hcontrol] at hvalue
          refine (JsonText.elements_comma hvalue).trans ?_
          rw [htail, Bool.false_or]
          split <;> rfl

/-- The catalog is read as what it is, if no text in it has a control
character. -/
theorem decode_remoteAppsJson (entries : List (List Char)) :
    JsonText.decode (remoteAppsJson entries) =
      if (catalog entries).any (fun app => (app.1 ++ app.2).any JsonText.isControl) then none
      else some (catalogValue (catalog entries)) := by
  rw [remoteAppsJson]
  cases catalog entries with
  | nil => rfl
  | cons app apps =>
      have hlength := length_le_intercalate ',' (appJson app) (apps.map appJson)
      rw [List.length_map, ← List.map_cons] at hlength
      have hopen : ∃ s, [','].intercalate ((app :: apps).map appJson) ++ [']'] = '\x7b' :: s := by
        cases apps <;> exact ⟨_, rfl⟩
      obtain ⟨s, hs⟩ := hopen
      have hfuel : apps.length + 5 ≤ 2 * ('[' :: '\x7b' :: s).length + 1 := by
        rw [← hs, List.length_cons, List.length_append, List.length_singleton]
        omega
      have hvalue := elements_apps app apps hfuel []
      rw [hs] at hvalue
      rw [List.cons_append, hs, JsonText.decode, JsonText.value_objects, hvalue]
      split <;> rfl

/-- The catalog is read as what it is exactly when no text in it has a control
character. -/
theorem json_iff (entries : List (List Char)) :
    JsonText.decode (remoteAppsJson entries) = some (catalogValue (catalog entries)) ↔
      ∀ app ∈ catalog entries, ∀ c ∈ app.1 ++ app.2, JsonText.isControl c = false := by
  have hall : (∀ app ∈ catalog entries, ∀ c ∈ app.1 ++ app.2, JsonText.isControl c = false) ↔
      ((catalog entries).any fun app => (app.1 ++ app.2).any JsonText.isControl) = false := by
    simp only [List.any_eq_false, Bool.not_eq_true]
  rw [hall, decode_remoteAppsJson]
  cases (catalog entries).any fun app => (app.1 ++ app.2).any JsonText.isControl with
  | false => exact iff_of_true rfl rfl
  | true =>
      constructor
      · intro h
        cases h
      · intro h
        cases h

/-! ## The escaping and its limits -/

theorem not_control_lineEnd {c : Char} (h : JsonText.isControl c = false) :
    isLineEnd c = false := by
  unfold isLineEnd
  have hne (e : Char) (he : JsonText.isControl e = true) : c ≠ e := by
    rintro rfl
    rw [h] at he
    cases he
  simp [hne '\n' rfl, hne '\r' rfl]

theorem lineEnds_iff (version : List Char) (config : AppConfig)
    (apps : List (List Char × List Char)) :
    (configTexts version config apps).any (·.any isLineEnd) = false ↔
      (∀ s ∈ version :: config.appName.toList, ∀ c ∈ s, isLineEnd c = false) ∧
        ∀ app ∈ apps, ∀ c ∈ app.1 ++ app.2, isLineEnd c = false := by
  have hpair (app : List Char × List Char) :
      [app.1, app.2].any (·.any isLineEnd) = (app.1 ++ app.2).any isLineEnd := by
    simp
  rw [configTexts, List.any_append, Bool.or_eq_false_iff, List.any_flatMap]
  simp only [hpair, List.any_eq_false, Bool.not_eq_true]

/-- The page's configuration is what it should be exactly when its texts are
harmless: escaping quotes and backslashes is not enough. -/
theorem survives_iff (version : List Char) (config : AppConfig) (appsFile : Option (List Char)) :
    Survives version config appsFile ↔
      HarmlessTexts version config (catalog (loadRemoteApps appsFile config).2) := by
  have hcode := code_iff version config (loadRemoteApps appsFile config)
  rw [lineEnds_iff] at hcode
  constructor
  · intro h
    exact ⟨(json_iff _).mp h.json, (hcode.mp h.code).1, (element_iff _ _ _).mp h.element⟩
  · intro h
    have hlines := fun app happ c hc => not_control_lineEnd (h.controls app happ c hc)
    exact ⟨(json_iff _).mpr h.controls, (element_iff _ _ _).mpr h.markup,
      hcode.mpr ⟨h.lineEnds, hlines⟩⟩

/-- A published program's name that ends the script element. -/
theorem not_survives : ¬ ∀ version config appsFile, Survives version config appsFile := by
  intro h
  have hsurvives := h "1.0".toList
    { appName := none, enableTextClipboard := true, enableFileClipboard := true,
      enableRemoteApp := true,
      remoteApps := ["</script><script>alert(1)</script>=calc".toList] } none
  obtain ⟨q, hq, -⟩ := (element_iff _ _ _).mp hsurvives.element
  cases hq

end WasmRdp
