import PluginCompiler.Template.Body

/-! The templates of generated files, and the pieces that they share. -/

set_option autoImplicit false

namespace PluginCompiler

def Emit.unlines (lines : List String) : String := String.join (lines.map (· ++ "\n"))

namespace Template

inductive Piece where
  | text (s : String)
  | out (e : Expr)
  | given (test : Expr) (s : String)

instance : Coe String Piece := ⟨.text⟩

instance : Coe Expr Piece := ⟨.out⟩

def line : List Piece → Body → Body
  | [], rest => .text "\n" rest
  | .text s :: more, rest => .text s (line more rest)
  | .out e :: more, rest => .out e (line more rest)
  | .given test s :: more, rest => .cond test (.text s .done) .done (line more rest)

def tabbed (n : Nat) (pieces : List Piece) (rest : Body) : Body :=
  line (List.replicate n (.text "\t") ++ pieces) rest

def fixed (lines : List String) (rest : Body) : Body := .text (Emit.unlines lines) rest

def inQuotes (pieces : List Piece) : List Piece := [.text "\""] ++ pieces ++ [.text "\""]

def generatedFrom (origin : List Piece) (rest : Body) : Body :=
  line ([.text "// Code generated by plugspec from the "] ++ origin ++ [.text ". DO NOT EDIT."]) rest

def of (x field : String) : Expr := .field (.var x) field

/-! ## Shared pieces -/

def declaration (x type : String) : List Piece :=
  [of x "name", " ", .given (of x "nullable") "*", of x type, " ", "\x60", "json:", "\"",
   of x "raw_name", .given (.not (of x "required")) ",omitempty", "\"\x60"]

def fieldLines (x type : String) (rest : Body) : Body :=
  .cond (of x "description")
    (tabbed 1 ["// ", of x "name", " ", Expr.filter .comment (of x "description")] .done) .done <|
  tabbed 1 (declaration x type) rest

def constantLines (x : String) (start : Expr) (owner : List Piece) : Body :=
  .each "enum" (of x "enum_literals") none
    (tabbed 1 ("// " :: start :: of "enum" "name" :: " is an allowed value of " :: owner) <|
     tabbed 1 [start, of "enum" "name", " = ", Expr.filter .constant (of "enum" "literal_value")]
      .done)
    .done

namespace Macro

def parameters : Macro → List String
  | structFields | hasEnums => ["params"]
  | enumConstants => ["prefix", "params"]
  | importBlock => ["paths"]

def body : Macro → Body
  | structFields =>
    .each "param" (.values (.var "params")) none (fieldLines "param" "type" .done) .done
  | enumConstants =>
    .each "param" (.values (.var "params")) (some (of "param" "enum_literals"))
      (constantLines "param" (.var "prefix") [of "param" "raw_name"]) .done
  | hasEnums =>
    .each "param" (.values (.var "params")) (some (of "param" "enum_literals"))
      (.cond (of "loop" "first") (.text "yes" .done) .done .done) .done
  | importBlock =>
    .cond (.var "paths")
      (fixed ["", "import ("] <|
       .each "path" (.var "paths") none (tabbed 1 (inQuotes [Expr.var "path"]) .done) <|
       fixed [")"] .done) .done .done

/-- Macros call no others. -/
def noCalls : Calls := fun _ _ => .error .unfit

def call : Calls := fun m arguments => m.body.render noCalls (m.parameters.zip arguments)

end Macro

/-! ## Actions and triggers -/

abbrev ofHandler (field : String) : Expr := of "handler" field

abbrev constantsOf (start : Expr) (params : Expr) : Expr := .callWith .enumConstants start params

def ownedNote (rest : Body) : Body :=
  fixed ["//", "// This file was generated once by plugspec and is yours to edit: it is",
    "// never overwritten when the plugin is regenerated."] rest

def outputNote : HandlerKind → List Piece
  | .action =>
    ["// ", ofHandler "name", "Output are the outputs of the ", ofHandler "raw_name", " action"]
  | .trigger =>
    ["// ", ofHandler "name", "Event is one event emitted by the ", ofHandler "raw_name", " trigger"]

def stateLines (kind : HandlerKind) (rest : Body) : Body :=
  match kind with
  | .action => fixed ["\tConn *connection.Data"] rest
  | .trigger =>
    fixed ["\tConn   *connection.Data"] <|
    tabbed 1 ["Input  *", ofHandler "name", "Input"] <|
    tabbed 1 ["Events chan<- *", ofHandler "name", "Event"] rest

def methodStart (kind : HandlerKind) : List Piece :=
  ["func (" ++ kind.receiver ++ " *", ofHandler "name", kind.typeSuffix ++ ") "]

def methodLines (kind : HandlerKind) (name : String) (result : Expr) (rest : Body) : Body :=
  line (methodStart kind ++ [.text (name ++ "() string \x7b")]) <|
  tabbed 1 ["return ", Expr.filter .quote result] <|
  fixed ["\x7d"] rest

def handlerBody (kind : HandlerKind) : Body :=
  generatedFrom (inQuotes [ofHandler "raw_name"] ++ [.text " ", .text kind.word]) <|
  fixed ["", "package " ++ kind.package] <|
  .bind "params" (.plus (.filter .list (.values (ofHandler "input")))
    (.filter .list (.values (ofHandler "output")))) <|
  line [Expr.call .importBlock (.plus (.imports false (.var "params") (ofHandler "package_root"))
    (.single (.joined (ofHandler "package_root") (.quoted "/connection"))))] <|
  line ["// ", ofHandler "name", "Input are the inputs of the ", ofHandler "raw_name",
    " " ++ kind.word] <|
  line ["type ", ofHandler "name", "Input struct \x7b"] <|
  line [Expr.call .structFields (ofHandler "input"), "\x7d"] <|
  fixed [""] <|
  line (outputNote kind) <|
  line ["type ", ofHandler "name", kind.outputSuffix ++ " struct \x7b"] <|
  line [Expr.call .structFields (ofHandler "output"), "\x7d"] <|
  .cond (.or (.call .hasEnums (ofHandler "input")) (.call .hasEnums (ofHandler "output")))
    (fixed ["", "const ("] <|
     line [constantsOf (.joined (ofHandler "name") (.quoted "Input")) (ofHandler "input"),
       constantsOf (.joined (ofHandler "name") (.quoted kind.outputSuffix)) (ofHandler "output"), ")"]
      .done) .done <|
  fixed [""] <|
  line ["// ", ofHandler "name", kind.typeSuffix ++ " ",
    Expr.filter .comment (.or (ofHandler "description")
      (.joined (.joined (.quoted "runs the ") (ofHandler "raw_name")) (.quoted (" " ++ kind.word))))] <|
  line ["type ", ofHandler "name", kind.typeSuffix ++ " struct \x7b"] <|
  stateLines kind <|
  fixed ["\x7d", "",
    "// Name returns the name of the " ++ kind.word ++ " as declared in the plugin spec"] <|
  methodLines kind "Name" (ofHandler "raw_name") <|
  fixed ["", "// Title returns the human readable title of the " ++ kind.word] <|
  methodLines kind "Title" (ofHandler "title") .done

def stubBody : HandlerKind → Body
  | .action =>
    fixed ["package actions", ""] <|
    line ["// Run executes the ", ofHandler "raw_name", " action."] <|
    ownedNote <|
    line (methodStart .action ++ [.text "Run(input *", .out (ofHandler "name"), .text "Input) (*",
      .out (ofHandler "name"), .text "Output, error) \x7b"]) <|
    tabbed 1 ["// Implement ", ofHandler "raw_name", " here. a.Conn holds the plugin connection."] <|
    tabbed 1 ["return &", ofHandler "name", "Output\x7b\x7d, nil"] <|
    fixed ["\x7d"] .done
  | .trigger =>
    fixed ["package triggers", ""] <|
    line ["// Run starts the ", ofHandler "raw_name", " trigger. Send each event to t.Events"] <|
    fixed ["// and return when the trigger is done or fails."] <|
    ownedNote <|
    line (methodStart .trigger ++ [.text "Run() error \x7b"]) <|
    tabbed 1 ["// Implement ", ofHandler "raw_name", " here. t.Conn holds the plugin connection."] <|
    fixed ["\treturn nil", "\x7d"] .done

/-! ## The connection -/

abbrev ofSpec (field : String) : Expr := of "spec" field

def connectionBody : Body :=
  generatedFrom [ofSpec "name", " connection"] <|
  fixed ["", "package connection"] <|
  line [Expr.call .importBlock (.imports false (.values (ofSpec "connection")) (ofSpec "package_root"))] <|
  line ["// Data is the connection of the ", ofSpec "name", " plugin"] <|
  fixed ["type Data struct \x7b"] <|
  line [Expr.call .structFields (ofSpec "connection"), "\x7d"] <|
  .cond (.call .hasEnums (ofSpec "connection"))
    (fixed ["", "const ("] <|
     line [constantsOf (.quoted "Data") (ofSpec "connection"), ")"] .done) .done <|
  fixed ["", "// Key identifies this connection in the connection cache",
    "func (c *Data) Key() string \x7b"] <|
  tabbed 1 ["return ", ofSpec "connection_data_key"] <|
  fixed ["\x7d"] <|
  .cond (.filter .list (.filter (.equal "type" "string")
      (.filter (.having "nullable") (.values (ofSpec "connection")))))
    (fixed ["", "func stringValue(s *string) string \x7b", "\tif s == nil \x7b", "\t\treturn \"\"",
      "\t\x7d", "\treturn *s", "\x7d"] .done) .done
    .done

def connectBody : Body :=
  fixed ["package connection", "",
    "// Client is whatever Connect builds from the connection data, shared by",
    "// every action and trigger that uses the same connection.", "type Client interface\x7b\x7d", "",
    "// Connect validates the connection data and returns a client for it."] <|
  ownedNote <|
  fixed ["func (c *Data) Connect() (Client, error) \x7b", "\treturn nil, nil", "\x7d"] .done

def cacheBody : Body :=
  fixed ["package connection", "", "import \"sync\"", "", "var (", "\tcacheMu sync.Mutex",
    "\tcache   = map[string]Client\x7b\x7d", ")", "",
    "// Cached returns the client for c, calling Connect only the first time a",
    "// connection with the same Key is seen."] <|
  ownedNote <|
  fixed ["func (c *Data) Cached() (Client, error) \x7b", "\tcacheMu.Lock()", "\tdefer cacheMu.Unlock()",
    "\tkey := c.Key()", "\tif client, ok := cache[key]; ok \x7b", "\t\treturn client, nil", "\t\x7d",
    "\tclient, err := c.Connect()", "\tif err != nil \x7b", "\t\treturn nil, err", "\t\x7d",
    "\tcache[key] = client", "\treturn client, nil", "\x7d"] .done

/-! ## The command -/

def actionCase : Body :=
  tabbed 1 ["case ", Expr.filter .quote (of "action" "raw_name"), ":"] <|
  tabbed 2 ["input := &actions.", of "action" "name", "Input\x7b\x7d"] <|
  fixed ["\t\tif err := decodeInput(m.Body.Input, input); err != nil \x7b", "\t\t\treturn err",
    "\t\t\x7d"] <|
  tabbed 2 ["a := &actions.", of "action" "name", "Action\x7bConn: conn\x7d"] <|
  fixed ["\t\toutput, err := a.Run(input)", "\t\tif err != nil \x7b", "\t\t\treturn err", "\t\t\x7d",
    "\t\treturn json.NewEncoder(os.Stdout).Encode(output)"] .done

def triggerCase : Body :=
  tabbed 1 ["case ", Expr.filter .quote (of "trigger" "raw_name"), ":"] <|
  tabbed 2 ["input := &triggers.", of "trigger" "name", "Input\x7b\x7d"] <|
  fixed ["\t\tif err := decodeInput(m.Body.Input, input); err != nil \x7b", "\t\t\treturn err",
    "\t\t\x7d"] <|
  tabbed 2 ["events := make(chan *triggers.", of "trigger" "name", "Event)"] <|
  fixed ["\t\tdone := make(chan error, 1)", "\t\tgo func() \x7b"] <|
  tabbed 3 ["t := &triggers.", of "trigger" "name",
    "Trigger\x7bConn: conn, Input: input, Events: events\x7d"] <|
  fixed ["\t\t\tdone <- t.Run()", "\t\t\tclose(events)", "\t\t\x7d()", "\t\tfor event := range events \x7b",
    "\t\t\tif err := json.NewEncoder(os.Stdout).Encode(event); err != nil \x7b", "\t\t\t\treturn err",
    "\t\t\t\x7d", "\t\t\x7d", "\t\treturn <-done"] .done

def handlersImport (field : String) (rest : Body) : Body :=
  .cond (ofSpec field)
    (tabbed 1 (inQuotes [.out (ofSpec "package_root"), .text ("/" ++ field)]) .done) .done rest

def programBody : Body :=
  generatedFrom [ofSpec "name", " plugin spec"] <|
  fixed ["", "package main", "", "import (", "\t\"encoding/json\"", "\t\"flag\"", "\t\"fmt\"", "\t\"log\"",
    "\t\"os\"", ""] <|
  handlersImport "actions" <|
  tabbed 1 (inQuotes [ofSpec "package_root", "/connection"]) <|
  tabbed 1 (.text "server " :: inQuotes [ofSpec "package_root", "/server/http"]) <|
  handlersImport "triggers" <|
  fixed [")", "", "// message is the envelope the runtime sends on stdin", "type message struct \x7b",
    "\tVersion string \x60json:\"version\"\x60", "\tType    string \x60json:\"type\"\x60",
    "\tBody    body   \x60json:\"body\"\x60", "\x7d", "", "type body struct \x7b",
    "\tMeta       json.RawMessage \x60json:\"meta\"\x60",
    "\tAction     string          \x60json:\"action\"\x60",
    "\tTrigger    string          \x60json:\"trigger\"\x60",
    "\tConnection json.RawMessage \x60json:\"connection\"\x60",
    "\tInput      json.RawMessage \x60json:\"input\"\x60", "\x7d", "", "func main() \x7b"] <|
  tabbed 1 ["serve := flag.Bool(\"http\", false, \"Serve actions over HTTP on port ",
    Expr.field (ofSpec "http") "port", "\")"] <|
  fixed ["\tflag.Parse()", "\tif *serve \x7b", "\t\tlog.Fatal(server.New().ListenAndServe())", "\t\x7d", "",
    "\tvar m message", "\tif err := json.NewDecoder(os.Stdin).Decode(&m); err != nil \x7b",
    "\t\tlog.Fatalf(\"Error decoding message: %s\", err)", "\t\x7d",
    "\tif err := dispatch(&m); err != nil \x7b", "\t\tlog.Fatal(err)", "\t\x7d", "\x7d", "",
    "func dispatch(m *message) error \x7b", "\tconn := &connection.Data\x7b\x7d",
    "\tif len(m.Body.Connection) > 0 \x7b",
    "\t\tif err := json.Unmarshal(m.Body.Connection, conn); err != nil \x7b",
    "\t\t\treturn fmt.Errorf(\"error decoding connection: %s\", err)", "\t\t\x7d", "\t\x7d", "",
    "\tswitch m.Body.Action \x7b"] <|
  .each "action" (.values (ofSpec "actions")) none actionCase <|
  fixed ["\t\x7d", "", "\tswitch m.Body.Trigger \x7b"] <|
  .each "trigger" (.values (ofSpec "triggers")) none triggerCase <|
  fixed ["\t\x7d", "",
    "\treturn fmt.Errorf(\"unknown action %q or trigger %q\", m.Body.Action, m.Body.Trigger)", "\x7d", "",
    "func decodeInput(raw json.RawMessage, v interface\x7b\x7d) error \x7b", "\tif len(raw) == 0 \x7b",
    "\t\treturn nil", "\t\x7d", "\tif err := json.Unmarshal(raw, v); err != nil \x7b",
    "\t\treturn fmt.Errorf(\"error decoding input: %s\", err)", "\t\x7d", "\treturn nil", "\x7d"] .done

/-! ## The server -/

def routeEntry : Body :=
  tabbed 1 ["mux.HandleFunc(\"/actions/", of "action" "raw_name", "\", Handle", of "action" "name", ")"]
    .done

def serverBody : Body :=
  generatedFrom [ofSpec "name", " plugin spec"] <|
  fixed ["", "package server", "", "import (", "\t\"net/http\"", "\t\"time\"", ")", ""] <|
  line ["// New returns the HTTP server of the ", ofSpec "name", " plugin, with one"] <|
  fixed ["// route per action", "func New() *http.Server \x7b", "\tmux := http.NewServeMux()"] <|
  .each "action" (.values (ofSpec "actions")) none routeEntry <|
  fixed ["\treturn &http.Server\x7b"] <|
  tabbed 2 ["Addr:         \":", Expr.field (ofSpec "http") "port", "\","] <|
  fixed ["\t\tHandler:      mux,"] <|
  tabbed 2 ["ReadTimeout:  ", Expr.field (ofSpec "http") "read_timeout", " * time.Second,"] <|
  tabbed 2 ["WriteTimeout: ", Expr.field (ofSpec "http") "write_timeout", " * time.Second,"] <|
  fixed ["\t\x7d", "\x7d"] .done

def routeBody : Body :=
  generatedFrom (inQuotes [ofHandler "raw_name"] ++ [.text " action"]) <|
  fixed ["", "package server", "", "import (", "\t\"encoding/json\"", "\t\"net/http\"", ""] <|
  tabbed 1 (inQuotes [ofHandler "package_root", "/actions"]) <|
  tabbed 1 (inQuotes [ofHandler "package_root", "/connection"]) <|
  fixed [")", ""] <|
  line ["// Handle", ofHandler "name", " runs the ", ofHandler "raw_name", " action for a POSTed"] <|
  fixed ["// \x7b\"connection\": ..., \"input\": ...\x7d body and responds with its output"] <|
  line ["func Handle", ofHandler "name", "(w http.ResponseWriter, r *http.Request) \x7b"] <|
  fixed ["\tif r.Method != http.MethodPost \x7b",
    "\t\thttp.Error(w, \"method not allowed\", http.StatusMethodNotAllowed)", "\t\treturn", "\t\x7d",
    "\tvar req struct \x7b", "\t\tConnection connection.Data \x60json:\"connection\"\x60"] <|
  tabbed 2 ["Input      actions.", ofHandler "name", "Input \x60json:\"input\"\x60"] <|
  fixed ["\t\x7d", "\tif err := json.NewDecoder(r.Body).Decode(&req); err != nil \x7b",
    "\t\thttp.Error(w, err.Error(), http.StatusBadRequest)", "\t\treturn", "\t\x7d"] <|
  tabbed 1 ["a := &actions.", ofHandler "name", "Action\x7bConn: &req.Connection\x7d"] <|
  fixed ["\toutput, err := a.Run(&req.Input)", "\tif err != nil \x7b",
    "\t\thttp.Error(w, err.Error(), http.StatusInternalServerError)", "\t\treturn", "\t\x7d",
    "\tw.Header().Set(\"Content-Type\", \"application/json\")", "\tjson.NewEncoder(w).Encode(output)",
    "\x7d"] .done

/-! ## Custom types -/

/-- An embedded field is its bare type. -/
def memberLines : Body :=
  .cond (of "field" "embed") (tabbed 1 [of "field" "internal_type"] .done)
    (fieldLines "field" "internal_type" .done) .done

def typeBody : Body :=
  generatedFrom (inQuotes [of "type" "raw_name"] ++ [.text " type"]) <|
  fixed ["", "package types"] <|
  line [Expr.call .importBlock (.imports true (of "type" "sorted_fields") (ofSpec "package_root"))] <|
  line ["// ", of "type" "name", " is the ", of "type" "raw_name", " type declared by the ", ofSpec "name",
    " plugin"] <|
  line ["type ", of "type" "name", " struct \x7b"] <|
  .each "field" (of "type" "sorted_fields") none memberLines <|
  fixed ["\x7d"] <|
  .bind "enum_fields" (.filter .list (.filter (.having "enum_literals") (of "type" "sorted_fields"))) <|
  .cond (.var "enum_fields")
    (fixed ["", "const ("] <|
     .each "field" (.var "enum_fields") none
      (constantLines "field" (of "type" "name") [of "type" "raw_name", ".", of "field" "raw_name"]) <|
     fixed [")"] .done) .done
    .done

/-! ## Building -/

def orText (e : Expr) (s : String) : Expr := .or e (.quoted s)

def installed : List Piece := ["/bin/", orText (ofSpec "name") "plugin"]

def imageBody : Body :=
  fixed ["FROM golang:1.10-alpine AS build"] <|
  line ["WORKDIR /go/src/", ofSpec "package_root"] <|
  fixed ["COPY . ."] <|
  line ([.text "RUN CGO_ENABLED=0 go build -o "] ++ installed ++ [.text " ./cmd"]) <|
  fixed ["", "FROM alpine:3.7", "RUN apk add --no-cache ca-certificates"] <|
  line ([.text "COPY --from=build "] ++ installed ++ [.text " "] ++ installed) <|
  fixed ["COPY plugin.spec.yaml /plugin.spec.yaml"] <|
  line ["EXPOSE ", Expr.field (ofSpec "http") "port"] <|
  line ([.text "ENTRYPOINT ["] ++ inQuotes installed ++ [.text "]"]) .done

def makefileBody : Body :=
  line ["NAME := ", orText (ofSpec "name") "plugin"] <|
  line ["VERSION := ", orText (ofSpec "version") "0.0.0"] <|
  line ["VENDOR := ", orText (ofSpec "vendor") ""] <|
  fixed ["IMAGE := $(VENDOR)/$(NAME):$(VERSION)", "", ".PHONY: all build test fmt image run-http", "",
    "all: fmt test build", "", "build:", "\tgo build -o bin/$(NAME) ./cmd", "", "test:",
    "\tgo test ./actions/... ./triggers/... ./connection/... ./types/...", "", "fmt:",
    "\tgofmt -l -w actions triggers connection types cmd server", "", "image:",
    "\tdocker build -t $(IMAGE) .", "", "run-http: build", "\t./bin/$(NAME) -http"] .done

end Template

end PluginCompiler
