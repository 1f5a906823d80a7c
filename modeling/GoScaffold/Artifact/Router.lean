import GoScaffold.Artifact.Operation
import GoScaffold.Go.File

set_option autoImplicit false

/-! # Router

The file of handlers: a map from method and route to the handler, and per table a handler for each
of its operations, which reads the request, calls the service and writes the answer. -/

namespace GoScaffold.Router

open Go

/-- The types of requests and answers, and the functions that answer. -/
def sharedCode : Code :=
  declaration "type RequestBean[T any] struct"
    (lines [
      "Timestamp int64 `json:\"timestamp\"`",
      "Data      T     `json:\"data\"`"])
    ++ declaration "type ResultBean struct"
      (lines [
        "Code    int    `json:\"code\"`",
        "Message string `json:\"message\"`",
        "Data    any    `json:\"data,omitempty\"`"])
    ++ declaration "type PageResult[T any] struct"
      (lines [
        "Count int `json:\"count\"`",
        "List  []T `json:\"list\"`"])
    ++ declaration "func success(c *gin.Context, data any)"
      (line ("c.JSON(http.StatusOK, "
        ++ composite "ResultBean" "Code: http.StatusOK, Message: \"success\", Data: data" ++ ")"))
    ++ declaration "func fail(c *gin.Context, code int, message string)"
      (line ("c.JSON(code, " ++ composite "ResultBean" "Code: code, Message: message" ++ ")"))

/-- The function that answers after a panic. -/
def recoverCode : Code :=
  declaration "func recoverWith(c *gin.Context)"
    (block "if r := recover(); r != nil"
      (lines [
        "log.Printf(\"__LINE__ recovered: %v\", r)",
        "fail(c, http.StatusInternalServerError, fmt.Sprint(r))"]))

/-- A key of the map of handlers: the method and the route. -/
def routeKey (t : Table) (op : Operation) : String := op.method ++ " " ++ op.route t

/-- The line of the map of handlers for an operation of a table. -/
def routeLine (t : Table) (op : Operation) : String :=
  "\"" ++ routeKey t op ++ "\": r." ++ op.methodName t.modelName ++ ","

/-- The lines of the map of handlers for a table. -/
def routeLines (t : Table) : List String := (Operation.ofTable t).map (routeLine t)

/-- The router: its type, the map of handlers, and the method that registers them. -/
def routerCode (tables : List Table) (o : Options) : Code :=
  declaration "type Router struct" (line ("Service *service." ++ o.serviceType))
    ++ line "// Router maps \"METHOD path\" to the handler serving it."
    ++ declaration "func (r *Router) Router() map[string]gin.HandlerFunc"
      (enclosed "return map[string]gin.HandlerFunc\x7b" (lines (tables.flatMap routeLines)) "\x7d")
    ++ line "// Register adds every route to routes."
    ++ declaration "func (r *Router) Register(routes gin.IRoutes)"
      (block "for key, handler := range r.Router()"
        (lines [
          "method, path, _ := strings.Cut(key, \" \")",
          "routes.Handle(method, path, handler)"]))

/-- Reads the request, and refuses one that is malformed or empty. -/
def bindCode (dataType : String) : Code :=
  line ("var req RequestBean[" ++ dataType ++ "]")
    ++ block "if err := c.ShouldBindJSON(&req); err != nil || req.Data == nil"
      (lines [
        "log.Printf(\"__LINE__ bad request: %v\", err)",
        "fail(c, http.StatusBadRequest, \"bad request\")",
        "return"])

/-- Calls the service for `values`, and answers with an error if it fails; `doing` says what was
tried. -/
def callCode (c : Convention) (model : String) (values : List String) (call doing : String) : Code :=
  match c, values with
  | .returned, _ =>
    line (Text.join ", " (values ++ ["err"]) ++ " := " ++ call)
      ++ block "if err != nil"
        (lines [
          "log.Printf(\"__LINE__ " ++ doing ++ " " ++ model ++ ": %v\", err)",
          "fail(c, http.StatusInternalServerError, err.Error())",
          "return"])
  | .panicking, [] => line call
  | .panicking, _ => line (Text.join ", " values ++ " := " ++ call)

/-- What an operation does, for the log. -/
def doing : Operation → String
  | .create => "create"
  | .update => "update"
  | .list => "list"
  | .get => "get"
  | .delete => "delete"

/-- The names that the results of the service are given. -/
def resultNames : Operation → List String
  | .list => ["count", "list"]
  | .get => ["m"]
  | .create | .update | .delete => []

/-- The call of the service. -/
def serviceCall (op : Operation) (model arguments : String) : String :=
  "r.Service." ++ op.methodName model ++ "(" ++ arguments ++ ")"

/-- The body of a handler. -/
def handlerBody (op : Operation) (model package : String) (c : Convention) : Code :=
  let record := package ++ "." ++ model
  let call (arguments : String) : Code :=
    callCode c model (resultNames op) (serviceCall op model arguments) (doing op)
  match op with
  | .list =>
    block "type pageable struct"
      (lines ["*" ++ record, "Page int `json:\"page\"`", "Size int `json:\"size\"`"])
      ++ bindCode "*pageable"
      ++ line ("filter := req.Data." ++ model)
      ++ block "if filter == nil" (line ("filter = &" ++ composite record ""))
      ++ call "filter, req.Data.Page, req.Data.Size"
      ++ line ("success(c, "
        ++ composite ("PageResult[*" ++ record ++ "]") "Count: count, List: list" ++ ")")
  | .get => bindCode ("*" ++ record) ++ call "req.Data" ++ line "success(c, m)"
  | .delete => bindCode ("*" ++ record) ++ call "req.Data" ++ line "success(c, nil)"
  | .create | .update => bindCode ("*" ++ record) ++ call "req.Data" ++ line "success(c, req.Data)"

/-- The handler of an operation. -/
def handlerCode (op : Operation) (model package : String) (c : Convention) : Code :=
  declaration ("func (r *Router) " ++ op.methodName model ++ "(c *gin.Context)")
    ((match c with
      | .panicking => line "defer recoverWith(c)"
      | .returned => [])
      ++ handlerBody op model package c)

/-- The part of the file for one table. -/
def tableCode (t : Table) (o : Options) : Code :=
  heading t.modelName
    ++ (Operation.ofTable t).flatMap fun op => handlerCode op t.modelName o.package o.convention

/-- The file of handlers. -/
def file (tables : List Table) (o : Options) (today : String) : File where
  package := "router"
  banner := o.bannerText? today
  imports :=
    ["log", "net/http", "strings", "github.com/gin-gonic/gin"]
      ++ (match o.convention with
        | .panicking => ["fmt"]
        | .returned => [])
      ++ (if tables.isEmpty then [] else [o.importPath o.package])
      ++ [o.importPath "service"]
  body :=
    sharedCode
      ++ (match o.convention with
        | .panicking => recoverCode
        | .returned => [])
      ++ routerCode tables o ++ tables.flatMap (tableCode · o)

end GoScaffold.Router
