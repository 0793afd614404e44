import PluginCompiler.Template

/-! What the templates of generated files write, line by line. -/

set_option autoImplicit false

namespace PluginCompiler

def HandlerKind.outputNote (kind : HandlerKind) (h : Handler) : String :=
  match kind with
  | .action => "// " ++ h.name ++ "Output are the outputs of the " ++ h.rawName ++ " action"
  | .trigger => "// " ++ h.name ++ "Event is one event emitted by the " ++ h.rawName ++ " trigger"

namespace Emit

def indent (lines : List String) : List String := lines.map ("\t" ++ ·)

/-- Paragraphs one level further in, with an empty line between them. -/
def paragraphs (parts : List (List String)) : List String := [""].intercalate (parts.map indent)

def bracesOf (head : String) (parts : List (List String)) : List String :=
  [head ++ " \x7b"] ++ paragraphs parts ++ ["\x7d"]

def braces (head : String) (body : List String) : List String := bracesOf head [body]

def parensOf (head : String) (parts : List (List String)) : List String :=
  [head ++ " ("] ++ paragraphs parts ++ [")"]

def parens (head : String) (body : List String) : List String := parensOf head [body]

/-- Lines with an empty one before them, if there are any. -/
def apart (lines : List String) : List String := if lines.isEmpty then [] else "" :: lines

def quoted (s : String) : String := "\"" ++ s ++ "\""

def rawQuoted (s : String) : String := "\x60" ++ s ++ "\x60"

def generatedFrom (origin : String) : String :=
  "// Code generated by plugspec from the " ++ origin ++ ". DO NOT EDIT."

def ownedNote : List String :=
  ["//", "// This file was generated once by plugspec and is yours to edit: it is",
   "// never overwritten when the plugin is regenerated."]

def importBlock (paths : List String) : List String :=
  if paths.isEmpty then [] else apart (parens "import" (paths.map quoted))

def field (type : String) (p : Parameter) : List String :=
  let note := match p.description with
    | some text => if text = "" then [] else ["// " ++ p.name ++ " " ++ Go.comment text]
    | none => []
  let pointer := if p.nullable then "*" else ""
  let option := if p.required then "" else ",omitempty"
  let label := rawQuoted ("json:" ++ quoted (p.rawName ++ option))
  note ++ [p.name ++ " " ++ pointer ++ type ++ " " ++ label]

def fields (s : Section Parameter) : List String := s.values.flatMap fun p => field p.type p

/-- The constants of a parameter. `owner` says whose values they are. -/
def constants (start owner : String) (literals : List EnumLiteral) : List String :=
  literals.flatMap fun l =>
    ["// " ++ start ++ l.name ++ " is an allowed value of " ++ owner,
     start ++ l.name ++ " = " ++ Go.constant l.literal]

def sectionConstants (start : String) (s : Section Parameter) : List String :=
  s.values.flatMap fun p => constants start p.rawName p.enumLiterals

def constantBlock (lines : List String) : List String :=
  if lines.isEmpty then [] else apart (parens "const" lines)

def structType (name : String) (body : List String) : List String :=
  braces ("type " ++ name ++ " struct") body

/-- A text, or another one in place of an empty or absent one. -/
def orElse (default_ : String) : Option String → String
  | some s => if s = "" then default_ else s
  | none => default_

/-! ## Actions and triggers -/

def handlerState (kind : HandlerKind) (h : Handler) : List String :=
  match kind with
  | .action => ["Conn *connection.Data"]
  | .trigger =>
    ["Conn   *connection.Data", "Input  *" ++ h.name ++ "Input",
     "Events chan<- *" ++ h.name ++ "Event"]

def method (kind : HandlerKind) (h : Handler) (signature : String) : String :=
  "func (" ++ kind.receiver ++ " *" ++ h.name ++ kind.typeSuffix ++ ") " ++ signature

def handlerConstants (kind : HandlerKind) (h : Handler) : List String :=
  sectionConstants (h.name ++ "Input") h.input ++
    sectionConstants (h.name ++ kind.outputSuffix) h.output

def handlerImports (h : Handler) : List String :=
  Go.typeImports false h.packageRoot ((h.input.values ++ h.output.values).map (·.type)) ++
    [h.packageRoot ++ "/connection"]

def handlerLines (kind : HandlerKind) (h : Handler) : List String :=
  let type := h.name ++ kind.typeSuffix
  let purpose := orElse ("runs the " ++ h.rawName ++ " " ++ kind.word) h.description
  [generatedFrom (quoted h.rawName ++ " " ++ kind.word), "", "package " ++ kind.package] ++
  importBlock (handlerImports h) ++
  ["", "// " ++ h.name ++ "Input are the inputs of the " ++ h.rawName ++ " " ++ kind.word] ++
  structType (h.name ++ "Input") (fields h.input) ++
  ["", kind.outputNote h] ++
  structType (h.name ++ kind.outputSuffix) (fields h.output) ++
  constantBlock (handlerConstants kind h) ++
  ["", "// " ++ type ++ " " ++ Go.comment purpose] ++
  structType type (handlerState kind h) ++
  ["", "// Name returns the name of the " ++ kind.word ++ " as declared in the plugin spec"] ++
  braces (method kind h "Name() string") ["return " ++ Go.quote h.rawName] ++
  ["", "// Title returns the human readable title of the " ++ kind.word] ++
  braces (method kind h "Title() string") ["return " ++ Go.quoteOptional h.title]

def actionStubLines (h : Handler) : List String :=
  let result := h.name ++ "Output"
  ["package actions", "", "// Run executes the " ++ h.rawName ++ " action."] ++ ownedNote ++
  braces (method .action h ("Run(input *" ++ h.name ++ "Input) (*" ++ result ++ ", error)"))
    ["// Implement " ++ h.rawName ++ " here. a.Conn holds the plugin connection.",
     "return &" ++ result ++ "\x7b\x7d, nil"]

def triggerStubLines (h : Handler) : List String :=
  ["package triggers", "",
   "// Run starts the " ++ h.rawName ++ " trigger. Send each event to t.Events",
   "// and return when the trigger is done or fails."] ++ ownedNote ++
  braces (method .trigger h "Run() error")
    ["// Implement " ++ h.rawName ++ " here. t.Conn holds the plugin connection.", "return nil"]

def stubLines : HandlerKind → Handler → List String
  | .action => actionStubLines
  | .trigger => triggerStubLines

/-! ## The connection -/

/-- Whether the key of the connection reads a text that may be absent. -/
def readsOptionalText (s : Section Parameter) : Bool :=
  s.values.any fun p => p.nullable && p.type == "string"

def optionalTextHelper : List String :=
  braces "func stringValue(s *string) string"
    (braces "if s == nil" ["return \"\""] ++ ["return *s"])

def connectionImports (spec : Spec) : List String :=
  Go.typeImports false spec.packageRoot (spec.connection.values.map (·.type))

def connectionLines (spec : Spec) : List String :=
  [generatedFrom (spec.name ++ " connection"), "", "package connection"] ++
  importBlock (connectionImports spec) ++
  ["", "// Data is the connection of the " ++ spec.name ++ " plugin"] ++
  structType "Data" (fields spec.connection) ++
  constantBlock (sectionConstants "Data" spec.connection) ++
  ["", "// Key identifies this connection in the connection cache"] ++
  braces "func (c *Data) Key() string" ["return " ++ spec.connectionKey] ++
  (if readsOptionalText spec.connection then apart optionalTextHelper else [])

def connectLines : List String :=
  ["package connection", "",
   "// Client is whatever Connect builds from the connection data, shared by",
   "// every action and trigger that uses the same connection.",
   "type Client interface\x7b\x7d", "",
   "// Connect validates the connection data and returns a client for it."] ++ ownedNote ++
  braces "func (c *Data) Connect() (Client, error)" ["return nil, nil"]

def cacheLines : List String :=
  ["package connection", "", "import \"sync\"", ""] ++
  parens "var" ["cacheMu sync.Mutex", "cache   = map[string]Client\x7b\x7d"] ++
  ["", "// Cached returns the client for c, calling Connect only the first time a",
   "// connection with the same Key is seen."] ++ ownedNote ++
  braces "func (c *Data) Cached() (Client, error)"
    (["cacheMu.Lock()", "defer cacheMu.Unlock()", "key := c.Key()"] ++
     braces "if client, ok := cache[key]; ok" ["return client, nil"] ++
     ["client, err := c.Connect()"] ++
     braces "if err != nil" ["return nil, err"] ++
     ["cache[key] = client", "return client, nil"])

/-! ## The command -/

def messageTypes : List String :=
  ["// message is the envelope the runtime sends on stdin"] ++
  structType "message"
    ["Version string " ++ rawQuoted "json:\"version\"",
     "Type    string " ++ rawQuoted "json:\"type\"",
     "Body    body   " ++ rawQuoted "json:\"body\""] ++
  [""] ++
  structType "body"
    ["Meta       json.RawMessage " ++ rawQuoted "json:\"meta\"",
     "Action     string          " ++ rawQuoted "json:\"action\"",
     "Trigger    string          " ++ rawQuoted "json:\"trigger\"",
     "Connection json.RawMessage " ++ rawQuoted "json:\"connection\"",
     "Input      json.RawMessage " ++ rawQuoted "json:\"input\""]

def entryFunction (spec : Spec) : List String :=
  bracesOf "func main()"
    [["serve := flag.Bool(\"http\", false, \"Serve actions over HTTP on port " ++
        toString spec.http.port ++ "\")",
      "flag.Parse()"] ++
     braces "if *serve" ["log.Fatal(server.New().ListenAndServe())"],
     ["var m message"] ++
     braces "if err := json.NewDecoder(os.Stdin).Decode(&m); err != nil"
       ["log.Fatalf(\"Error decoding message: %s\", err)"] ++
     braces "if err := dispatch(&m); err != nil" ["log.Fatal(err)"]]

def returnOnError : List String := braces "if err != nil" ["return err"]

def decodeStep : List String :=
  braces "if err := decodeInput(m.Body.Input, input); err != nil" ["return err"]

def actionCase (h : Handler) : List String :=
  ["case " ++ Go.quote h.rawName ++ ":"] ++
  indent
    (["input := &actions." ++ h.name ++ "Input\x7b\x7d"] ++ decodeStep ++
     ["a := &actions." ++ h.name ++ "Action\x7bConn: conn\x7d", "output, err := a.Run(input)"] ++
     returnOnError ++ ["return json.NewEncoder(os.Stdout).Encode(output)"])

def triggerCase (h : Handler) : List String :=
  ["case " ++ Go.quote h.rawName ++ ":"] ++
  indent
    (["input := &triggers." ++ h.name ++ "Input\x7b\x7d"] ++ decodeStep ++
     ["events := make(chan *triggers." ++ h.name ++ "Event)", "done := make(chan error, 1)",
      "go func() \x7b"] ++
     indent
       ["t := &triggers." ++ h.name ++ "Trigger\x7bConn: conn, Input: input, Events: events\x7d",
        "done <- t.Run()", "close(events)"] ++
     ["\x7d()"] ++
     braces "for event := range events"
       (braces "if err := json.NewEncoder(os.Stdout).Encode(event); err != nil" ["return err"]) ++
     ["return <-done"])

def switch (subject : String) (cases_ : List String) : List String :=
  ["switch " ++ subject ++ " \x7b"] ++ cases_ ++ ["\x7d"]

def dispatchFunction (spec : Spec) : List String :=
  bracesOf "func dispatch(m *message) error"
    [["conn := &connection.Data\x7b\x7d"] ++
     braces "if len(m.Body.Connection) > 0"
       (braces "if err := json.Unmarshal(m.Body.Connection, conn); err != nil"
         ["return fmt.Errorf(\"error decoding connection: %s\", err)"]),
     switch "m.Body.Action" (spec.actions.values.flatMap actionCase),
     switch "m.Body.Trigger" (spec.triggers.values.flatMap triggerCase),
     ["return fmt.Errorf(\"unknown action %q or trigger %q\", m.Body.Action, m.Body.Trigger)"]]

def decodeFunction : List String :=
  braces "func decodeInput(raw json.RawMessage, v interface\x7b\x7d) error"
    (braces "if len(raw) == 0" ["return nil"] ++
     braces "if err := json.Unmarshal(raw, v); err != nil"
       ["return fmt.Errorf(\"error decoding input: %s\", err)"] ++
     ["return nil"])

/-- The packages of handlers are imported only if there are any. -/
def programImports (spec : Spec) : List String :=
  (if spec.actions.isEmpty then [] else [quoted (spec.packageRoot ++ "/actions")]) ++
  [quoted (spec.packageRoot ++ "/connection"),
   "server " ++ quoted (spec.packageRoot ++ "/server/http")] ++
  (if spec.triggers.isEmpty then [] else [quoted (spec.packageRoot ++ "/triggers")])

def programLines (spec : Spec) : List String :=
  [generatedFrom (spec.name ++ " plugin spec"), "", "package main", ""] ++
  parensOf "import"
    [["encoding/json", "flag", "fmt", "log", "os"].map quoted, programImports spec] ++ [""] ++
  messageTypes ++ [""] ++
  entryFunction spec ++ [""] ++
  dispatchFunction spec ++ [""] ++
  decodeFunction

/-! ## The server -/

def route (h : Handler) : String :=
  "mux.HandleFunc(\"/actions/" ++ h.rawName ++ "\", Handle" ++ h.name ++ ")"

def serverLines (spec : Spec) : List String :=
  [generatedFrom (spec.name ++ " plugin spec"), "", "package server", ""] ++
  parens "import" [quoted "net/http", quoted "time"] ++
  ["", "// New returns the HTTP server of the " ++ spec.name ++ " plugin, with one",
   "// route per action"] ++
  braces "func New() *http.Server"
    (["mux := http.NewServeMux()"] ++ spec.actions.values.map route ++
     ["return &http.Server\x7b"] ++
     indent
       ["Addr:         \":" ++ toString spec.http.port ++ "\",",
        "Handler:      mux,",
        "ReadTimeout:  " ++ toString spec.http.readTimeout ++ " * time.Second,",
        "WriteTimeout: " ++ toString spec.http.writeTimeout ++ " * time.Second,"] ++
     ["\x7d"])

def httpError (text status : String) : List String :=
  ["http.Error(w, " ++ text ++ ", http.Status" ++ status ++ ")", "return"]

def routeLines (h : Handler) : List String :=
  [generatedFrom (quoted h.rawName ++ " action"), "", "package server", ""] ++
  parensOf "import"
    [[quoted "encoding/json", quoted "net/http"],
     [quoted (h.packageRoot ++ "/actions"), quoted (h.packageRoot ++ "/connection")]] ++
  ["", "// Handle" ++ h.name ++ " runs the " ++ h.rawName ++ " action for a POSTed",
   "// \x7b\"connection\": ..., \"input\": ...\x7d body and responds with its output"] ++
  braces ("func Handle" ++ h.name ++ "(w http.ResponseWriter, r *http.Request)")
    (braces "if r.Method != http.MethodPost"
       (httpError "\"method not allowed\"" "MethodNotAllowed") ++
     braces "var req struct"
       ["Connection connection.Data " ++ rawQuoted "json:\"connection\"",
        "Input      actions." ++ h.name ++ "Input " ++ rawQuoted "json:\"input\""] ++
     braces "if err := json.NewDecoder(r.Body).Decode(&req); err != nil"
       (httpError "err.Error()" "BadRequest") ++
     ["a := &actions." ++ h.name ++ "Action\x7bConn: &req.Connection\x7d",
      "output, err := a.Run(&req.Input)"] ++
     braces "if err != nil" (httpError "err.Error()" "InternalServerError") ++
     ["w.Header().Set(\"Content-Type\", \"application/json\")",
      "json.NewEncoder(w).Encode(output)"])

/-! ## Custom types -/

def typeField (p : Parameter) : List String :=
  if p.embed then [p.internalType] else field p.internalType p

def typeConstants (t : CustomType) : List String :=
  t.sortedFields.flatMap fun p => constants t.name (t.rawName ++ "." ++ p.rawName) p.enumLiterals

def typeImports (t : CustomType) (spec : Spec) : List String :=
  Go.typeImports true spec.packageRoot (t.sortedFields.map (·.internalType))

def typeLines (t : CustomType) (spec : Spec) : List String :=
  [generatedFrom (quoted t.rawName ++ " type"), "", "package types"] ++
  importBlock (typeImports t spec) ++
  ["", "// " ++ t.name ++ " is the " ++ t.rawName ++ " type declared by the " ++ spec.name ++
     " plugin"] ++
  structType t.name (t.sortedFields.flatMap typeField) ++
  constantBlock (typeConstants t)

/-! ## Building -/

def pluginName (spec : Spec) : String := orElse "plugin" (some spec.name)

def imageLines (spec : Spec) : List String :=
  let program := "/bin/" ++ pluginName spec
  ["FROM golang:1.10-alpine AS build",
   "WORKDIR /go/src/" ++ spec.packageRoot,
   "COPY . .",
   "RUN CGO_ENABLED=0 go build -o " ++ program ++ " ./cmd",
   "",
   "FROM alpine:3.7",
   "RUN apk add --no-cache ca-certificates",
   "COPY --from=build " ++ program ++ " " ++ program,
   "COPY plugin.spec.yaml /plugin.spec.yaml",
   "EXPOSE " ++ toString spec.http.port,
   "ENTRYPOINT [" ++ quoted program ++ "]"]

def rule (head : String) (steps : List String) : List String := "" :: head :: indent steps

def makefileLines (spec : Spec) : List String :=
  ["NAME := " ++ pluginName spec,
   "VERSION := " ++ orElse "0.0.0" spec.version,
   "VENDOR := " ++ orElse "" spec.vendor,
   "IMAGE := $(VENDOR)/$(NAME):$(VERSION)",
   "",
   ".PHONY: all build test fmt image run-http"] ++
  rule "all: fmt test build" [] ++
  rule "build:" ["go build -o bin/$(NAME) ./cmd"] ++
  rule "test:" ["go test ./actions/... ./triggers/... ./connection/... ./types/..."] ++
  rule "fmt:" ["gofmt -l -w actions triggers connection types cmd server"] ++
  rule "image:" ["docker build -t $(IMAGE) ."] ++
  rule "run-http: build" ["./bin/$(NAME) -http"]

end Emit

namespace Template

def need {α : Type} (variable_ : String) : Option α → Except TemplateProblem α
  | some a => .ok a
  | none => .error (.undefined variable_)

/-- The lines of a filled-in template; of several missing variables the first that is used is
reported. -/
def lines (c : Context) : Template → Except TemplateProblem (List String)
  | handler kind => (need "handler" c.handler).map (Emit.handlerLines kind)
  | stub kind => (need "handler" c.handler).map (Emit.stubLines kind)
  | connection => (need "spec" c.spec).map Emit.connectionLines
  | connect => .ok Emit.connectLines
  | cache => .ok Emit.cacheLines
  | program => (need "spec" c.spec).map Emit.programLines
  | server => (need "spec" c.spec).map Emit.serverLines
  | route => (need "handler" c.handler).map Emit.routeLines
  | customType =>
    match need "type" c.type with
    | .error problem => .error problem
    | .ok t => (need "spec" c.spec).map (Emit.typeLines t)
  | image => (need "spec" c.spec).map Emit.imageLines
  | makefile => (need "spec" c.spec).map Emit.makefileLines
  | shared => .ok ["", "", ""]

end Template

end PluginCompiler
