import Pulse.Js.Hex
import Pulse.Util.Path
import Mathlib.Data.List.Infix

/-!
# Dashboard files

The part of `handleHttpRequest` which serves the built dashboard. The file system is a
parameter; no path has a symbolic link. Whatever the path of the request, a file that is
streamed lies in the directory `dashboard/dist`.
-/

namespace Js

/-- A code unit of a URI component: a character, or an octet written in hexadecimal. -/
inductive UriUnit
  | char (c : Char)
  | octet (n : Nat)

/-- The units of a text; `none` where a percent sign is not followed by two digits. -/
def uriUnits : List Char → Option (List UriUnit)
  | [] => some []
  | '%' :: a :: b :: rest => do
      let high ← hexDigitValue a
      let low ← hexDigitValue b
      return .octet (16 * high + low) :: (← uriUnits rest)
  | c :: rest => if c = '%' then none else (uriUnits rest).map (.char c :: ·)

/-- The character with the payload bits of a leading octet and its continuation octets. -/
def utf8Char (least payload : Nat) (continuation : List Nat) : Option Char :=
  let code := continuation.foldl (fun n octet => 64 * n + (octet - 0x80)) payload
  if (∀ octet ∈ continuation, 0x80 ≤ octet ∧ octet < 0xC0) ∧ least ≤ code ∧ code.isValidChar then
    some (Char.ofNat code)
  else none

def decodeUnits : List UriUnit → Option (List Char)
  | [] => some []
  | .char c :: rest => (decodeUnits rest).map (c :: ·)
  | .octet a :: rest =>
      if a < 0x80 then (decodeUnits rest).map (Char.ofNat a :: ·)
      else
        match rest with
        | .octet b :: rest =>
            if 0xC0 ≤ a ∧ a < 0xE0 then do
              let c ← utf8Char 0x80 (a - 0xC0) [b]
              return c :: (← decodeUnits rest)
            else
              match rest with
              | .octet b' :: rest =>
                  if 0xE0 ≤ a ∧ a < 0xF0 then do
                    let c ← utf8Char 0x800 (a - 0xE0) [b, b']
                    return c :: (← decodeUnits rest)
                  else
                    match rest with
                    | .octet b'' :: rest =>
                        if 0xF0 ≤ a ∧ a < 0xF8 then do
                          let c ← utf8Char 0x10000 (a - 0xF0) [b, b', b'']
                          return c :: (← decodeUnits rest)
                        else none
                    | _ => none
              | _ => none
        | _ => none

/-- `decodeURIComponent`; `none` is a `URIError`. -/
def decodeURIComponent (s : String) : Option String := do
  let units ← uriUnits s.toList
  let decoded ← decodeUnits units
  return String.ofList decoded

end Js

namespace Pulse

open Js

/-- What `fs` tells about a path. -/
structure FileSystem where
  existsSync : String → Bool
  isDirectory : String → Bool

/-- `process.cwd()` -/
structure WorkingDirectory where
  path : String
  absolute : Path.isAbsolute path = true

namespace Dashboard

inductive Reply
  | send (status : Nat) (contentType body : String)
  | redirect (location : String)
  /-- The content of a file, with status 200. -/
  | stream (path contentType : String)
  deriving DecidableEq, Repr

def dashboardDistPath (cwd : WorkingDirectory) : String :=
  Path.resolve cwd.path [cwd.path, "dashboard", "dist"]

def buildNotFound : String :=
  "\x7b\"error\":\"Dashboard build not found\",\"message\":\"Run npm run build:dashboard to " ++
    "compile dashboard static assets or run npm run dev:dashboard for development.\"\x7d"

def mimeTypes : List (String × String) :=
  [(".html", "text/html; charset=utf-8"), (".js", "application/javascript; charset=utf-8"),
    (".css", "text/css; charset=utf-8"), (".svg", "image/svg+xml"), (".png", "image/png"),
    (".ico", "image/x-icon"), (".json", "application/json; charset=utf-8")]

def contentTypeOf (path : String) : String :=
  let ext := (Path.extname path).toLower
  ((mimeTypes.find? (·.1 = ext)).map Prod.snd).getD "application/octet-stream"

/-- `pathname.replace(/^\/dashboard\/?/, '')` -/
def stripDashboard (pathname : List Char) : List Char :=
  if "/dashboard".toList <+: pathname then
    let rest := pathname.drop "/dashboard".toList.length
    if rest.head? = some '/' then rest.tail else rest
  else pathname

/-- The reply for a decoded path which is not empty: the file, or the index for it. -/
def serveFile (fs : FileSystem) (cwd : WorkingDirectory) (relativeFile : String) : Option Reply :=
  let dist := dashboardDistPath cwd
  let filePath := Path.resolve cwd.path [dist, relativeFile]
  let normalizedDist := Path.normalize dist ++ "/"
  let normalizedFile := Path.normalize filePath
  if normalizedFile ≠ Path.normalize dist ∧ ¬ normalizedDist.toList <+: normalizedFile.toList then
    some (.send 403 "text/plain" "Forbidden")
  else
    let missing : Bool := !fs.existsSync filePath || fs.isDirectory filePath
    if missing ∧ Path.extname relativeFile ≠ "" ∧ Path.extname relativeFile ≠ ".html" then
      some (.send 404 "text/plain" "Not Found")
    else
      let finalPath := if missing then Path.resolve cwd.path [dist, "index.html"] else filePath
      if fs.existsSync finalPath then some (.stream finalPath (contentTypeOf finalPath)) else none

/-- The reply to a request of the dashboard; with `none` the handler goes on to its other
routes. -/
def handleHttpRequest (fs : FileSystem) (cwd : WorkingDirectory) (rawUrl : String) :
    Option Reply :=
  let pathname := rawUrl.toList.takeWhile (· ≠ '?')
  if pathname = "/dashboard".toList then some (.redirect "/dashboard/")
  else if "/dashboard/".toList <+: pathname then
    if !fs.existsSync (dashboardDistPath cwd) then
      some (.send 404 "application/json" buildNotFound)
    else
      match decodeURIComponent (String.ofList (stripDashboard pathname)) with
      | none => some (.send 400 "text/plain" "Bad Request")
      | some relativeFile =>
          if '\x00' ∈ relativeFile.toList ∨ ['.', '.'] <:+: relativeFile.toList then
            some (.send 403 "text/plain" "Forbidden")
          else serveFile fs cwd (if relativeFile = "" then "index.html" else relativeFile)
  else none

variable {fs : FileSystem} {cwd : WorkingDirectory} {path contentType : String}

/-- The place of the dashboard's directory. -/
theorem dashboardDistPath_resolved (cwd : WorkingDirectory) :
    Path.Resolved (dashboardDistPath cwd) (Path.locate (dashboardDistPath cwd)) := by
  obtain ⟨place, hplace⟩ := Path.exists_resolved cwd.absolute [cwd.path, "dashboard", "dist"]
  rw [dashboardDistPath, Path.locate_of_resolved hplace]
  exact hplace

/-- What the check lets pass is the directory or lies below it. -/
theorem locate_of_checked {relativeFile : String}
    (h : ¬ (Path.normalize (Path.resolve cwd.path [dashboardDistPath cwd, relativeFile]) ≠
        Path.normalize (dashboardDistPath cwd) ∧
      ¬ (Path.normalize (dashboardDistPath cwd) ++ "/").toList <+:
        (Path.normalize (Path.resolve cwd.path [dashboardDistPath cwd, relativeFile])).toList)) :
    Path.resolve cwd.path [dashboardDistPath cwd, relativeFile] = dashboardDistPath cwd ∨
      ∃ inner, inner ≠ [] ∧
        Path.locate (Path.resolve cwd.path [dashboardDistPath cwd, relativeFile]) =
          Path.locate (dashboardDistPath cwd) ++ inner := by
  have hdist := dashboardDistPath_resolved cwd
  obtain ⟨place, hplace⟩ :=
    Path.exists_resolved cwd.absolute [dashboardDistPath cwd, relativeFile]
  rw [Path.normalize_of_resolved hdist, Path.normalize_of_resolved hplace] at h
  rcases not_and_or.mp h with heq | hinside
  · exact Or.inl (not_not.mp heq)
  · obtain ⟨inner, hne, hinner⟩ := Path.below_of_prefix hdist hplace (not_not.mp hinside)
    exact Or.inr ⟨inner, hne, by rw [Path.locate_of_resolved hplace, hinner]⟩

theorem locate_index (cwd : WorkingDirectory) :
    Path.locate (Path.resolve cwd.path [dashboardDistPath cwd, "index.html"]) =
      Path.locate (dashboardDistPath cwd) ++ ["index.html".toList] := by
  have hproper : Path.Proper "index.html".toList :=
    ⟨by decide, by decide, by decide, by decide⟩
  exact Path.locate_of_resolved
    (Path.resolve_entry (dashboardDistPath_resolved cwd) hproper cwd.path)

theorem serveFile_contained {relativeFile : String}
    (h : serveFile fs cwd relativeFile = some (.stream path contentType)) :
    ∃ inner, Path.locate path = Path.locate (dashboardDistPath cwd) ++ inner ∧
      (inner = [] → fs.isDirectory (dashboardDistPath cwd) = false) := by
  simp only [serveFile] at h
  split at h
  · cases h
  · rename_i hchecked
    split at h
    · cases h
    · split at h
      · -- the index stands in for what is missing
        split at h
        · obtain ⟨rfl, -⟩ := Reply.stream.inj (Option.some_inj.mp h)
          exact ⟨_, locate_index cwd, fun hnil => absurd hnil (List.cons_ne_nil _ _)⟩
        · cases h
      · rename_i hpresent
        split at h
        · obtain ⟨rfl, -⟩ := Reply.stream.inj (Option.some_inj.mp h)
          rw [Bool.not_eq_true, Bool.or_eq_false_iff] at hpresent
          rcases locate_of_checked hchecked with heq | ⟨inner, hne, hinner⟩
          · rw [heq] at hpresent ⊢
            exact ⟨[], (List.append_nil _).symm, fun _ => hpresent.2⟩
          · exact ⟨inner, hinner, fun hnil => absurd hnil hne⟩
        · cases h

/-- A file that is streamed leads to a place in the dashboard's directory, below it if it is
a directory. -/
theorem dashboard_contained {rawUrl : String}
    (h : handleHttpRequest fs cwd rawUrl = some (.stream path contentType)) :
    ∃ inner, Path.locate path = Path.locate (dashboardDistPath cwd) ++ inner ∧
      (inner = [] → fs.isDirectory (dashboardDistPath cwd) = false) := by
  simp only [handleHttpRequest] at h
  split at h
  · cases h
  · split at h
    · split at h
      · cases h
      · split at h
        · cases h
        · split at h
          · cases h
          · exact serveFile_contained h
    · cases h

/-- An asset of the dashboard under an encoded name. -/
theorem dashboard_contained_asset :
    ∃ inner, Path.locate "/srv/dashboard/dist/assets/main page.js" =
      Path.locate (dashboardDistPath ⟨"/srv", by decide⟩) ++ inner ∧
        (inner = [] → FileSystem.isDirectory ⟨fun _ => true, (· = "/srv/dashboard/dist")⟩
          (dashboardDistPath ⟨"/srv", by decide⟩) = false) :=
  dashboard_contained
    (show handleHttpRequest ⟨fun _ => true, (· = "/srv/dashboard/dist")⟩ ⟨"/srv", by decide⟩
      "/dashboard/assets/.//main%20page.js?v=1" =
        some (.stream _ "application/javascript; charset=utf-8") by decide +kernel)

example : handleHttpRequest ⟨fun _ => true, fun _ => false⟩ ⟨"/srv", by decide⟩
    "/dashboard/..%2F..%2Fpackage.json" = some (.send 403 "text/plain" "Forbidden") := by
  decide +kernel

end Dashboard

end Pulse
