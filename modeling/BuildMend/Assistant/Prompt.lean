import BuildMend.Diagnostic.Basic
import BuildMend.World.Path

/-!
What the assistant is told and asked.

* `fixInstructions`: how it mends builds; `fixRequest`: the errors and the output of one build.
* `searchInstructions`, `searchRequest`: how it finds the new place of a specification.
* `shortened`: the beginning of a long output, with a mark where it is cut.
* `serviceNames`: the names of a directory that say what service it is about.
-/

namespace BuildMend.Prompt

/-- The greatest number of errors that a request names. -/
def errorLimit : Nat := 10

/-- The greatest number of characters of an output that a request shows. -/
def outputLimit : Nat := 4000

/-- The mark where an output is cut. -/
def cutMark : String := "\n... [truncated]"

/-- A text up to a number of characters; a negative number counts from the end. -/
def upTo (limit : Int) (s : List Char) : List Char :=
  if limit < 0 then s.take (s.length - limit.natAbs) else s.take limit.natAbs

/-- An output of at most `limit` characters as it is, a longer one up to there with a mark. -/
def shortened (output : String) (limit : Int := outputLimit) : String :=
  let cs := output.toList
  if (cs.length : Int) ≤ limit then output else String.ofList (upTo limit cs) ++ cutMark

/-- The names that every specification directory has. -/
def commonNames : List String := ["specification", "data-plane", "resource-manager"]

/-- The names of a directory that say what service it is about. -/
def serviceNames (directory : String) : String :=
  ", ".intercalate ((Path.names directory).filter fun n => n != "" && !commonNames.contains n)

/-- The lines of a text. -/
def ofLines (lines : List String) : String := "\n".intercalate lines

/-! ### Mending builds -/

/-- How the assistant mends the builds of a project. -/
def fixInstructions (project : String) : String :=
  ofLines [
    "You are an expert C# developer helping fix build errors in Azure SDK libraries.",
    "",
    "CRITICAL RULES - YOU MUST FOLLOW THESE:",
    "1. NEVER modify, edit, or create files under any \"Generated\" folder or path " ++
      "containing \"Generated\".",
    "2. If an error is in a Generated file, you must fix it by creating/editing a " ++
      "CUSTOMIZATION file instead.",
    "3. Do not expect all errors to be fixed simply by modifying custom files - code " ++
      "generation is re-run after",
    "   you make fixes. You are being run in a loop: when you are finished fixing errors " ++
      "and require a",
    "   regeneration, end your current fix iteration.",
    "4. Common fix patterns for Generated file errors:",
    "   - Create a partial class in the non-Generated folder to extend the generated type",
    "   - Add missing interface implementations in customization files",
    "   - Create wrapper methods or extension methods",
    "",
    "MIGRATION PATTERNS TO APPLY:",
    "1. GeneratorPageableHelpers -> CollectionResult pattern:",
    "   - Code using GeneratorPageableHelpers.CreatePageable or similar needs to be replaced",
    "   - Look in the Generated folder for types ending in \"CollectionResult\" or " ++
      "\"PageableCollection\"",
    "   - Replace the helper call with an instance of the corresponding generated " ++
      "CollectionResult type",
    "   - If no CollectionResult type exists in the Generated folder:",
    "     a. The custom method is likely suppressing generation of the internal method " ++
      "that would create it",
    "     b. Find the [CodeGenSuppress] attribute that suppresses the generated method",
    "     c. Comment out or remove that attribute",
    "     d. End your current fix iteration so code generation runs again",
    "     e. After regeneration, the CollectionResult type will exist and can be used",
    "   - Do NOT create the CollectionResult type manually - it must be generated",
    "",
    "2. ToRequestContent() removal:",
    "   - Input models now have an implicit cast to RequestContent",
    "   - Replace `foo.ToRequestContent()` with just `foo`",
    "   - Example: `using RequestContent content = details.ToRequestContent();` becomes " ++
      "`using RequestContent content = details;`",
    "   - Do not remove the using statement - only remove the ToRequestContent() call",
    "",
    "3. FromCancellationToken replacement:",
    "   - Replace `RequestContext context = FromCancellationToken(cancellationToken);`",
    "   - With `RequestContext context = cancellationToken.ToRequestContext();`",
    "",
    "4. Mismatched factory method type names:",
    "   - If a custom type ending in ModelFactory has a different name than the generated " ++
      "type ending in",
    "     ModelFactory, update the CodeGenType attribute in the custom type to match the " ++
      "generated type name.",
    "",
    "5. Mismatched ClientBuilderExtensions type names:",
    "   - If a custom type ending in ClientBuilderExtensions has a different name than the " ++
      "generated type",
    "     ending in ClientBuilderExtensions, update the CodeGenType attribute in the " ++
      "custom type to match.",
    "",
    "6. Fetch methods in custom LRO methods:",
    "   - The new generator replaces Fetch methods with static FromLroResponse methods on " ++
      "the response models.",
    "   - Call ResponseModel.FromLroResponse(response) instead of the Fetch methods.",
    "   - Do NOT create Fetch methods manually.",
    "",
    "7. FromResponse method removal:",
    "   - Models no longer have FromResponse methods.",
    "   - Use the explicit cast from Response to the model type instead.",
    "   - Example: `var model = ModelType.FromResponse(response);` becomes `var model = " ++
      "(ModelType)response;`",
    "",
    "The project is located at: " ++ project,
    "",
    "When fixing errors:",
    "1. Use Grep/Glob to explore the codebase structure",
    "2. Use Read to understand the error context",
    "3. Determine if the error is in a Generated file (path contains \"Generated\")",
    "4. If in a Generated file: create/edit a customization file in the parallel " ++
      "non-Generated location",
    "5. Use Edit or Write to make your fixes",
    "6. Only change files that are NOT in Generated folders"
  ]

/-- The line about the errors that a request leaves out. -/
def remainingLine (count : Nat) : List String :=
  if count = 0 then [] else [s!"- ... and {count} more errors (fix the above first)"]

/-- The request to mend the errors of a build. -/
def fixRequest (errors : List Diagnostic) (output : String) : String :=
  ofLines <|
    ["The following build errors occurred. Please analyze and fix them.",
      "",
      "REMEMBER: Do NOT edit any file in a 'Generated' folder. Create customization files instead.",
      "",
      "## Errors:"] ++
    (errors.take errorLimit).map (fun e => "- " ++ e.text) ++
    remainingLine (errors.length - errorLimit) ++
    ["",
      "## Build Output (truncated):",
      "```",
      shortened output,
      "```"]

/-! ### Searching for specifications -/

/-- How the assistant looks for a specification of a repository. -/
def searchInstructions (owner repo : String) : String :=
  ofLines [
    "You are helping find the new location of a TypeSpec specification in the " ++
      owner ++
      "/" ++
      repo ++
      " repository.",
    "The specification may have been moved, renamed, or restructured.",
    "",
    "When searching:",
    "1. Use the available web tools to search and browse the repository on GitHub",
    "2. Look for TypeSpec projects (directories containing tspconfig.yaml or main.tsp)",
    "3. Match based on service name, resource provider, and API type",
    "4. Consider common restructuring patterns (e.g., data-plane -> service-specific folders)",
    "",
    "Return ONLY a JSON response in this exact format, nothing else:",
    "\x7b\"path\": \"specification/...\", \"commit\": \"abc123...\"\x7d",
    "",
    "If you cannot find the new location, return:",
    "\x7b\"path\": null, \"commit\": null\x7d"
  ]

/-- The request to find the new place of a directory. -/
def searchRequest (owner repo directory branch : String) : String :=
  ofLines [
    "The TypeSpec specification at path '" ++
      directory ++
      "' no longer exists in the " ++
      owner ++
      "/" ++
      repo ++
      " repository on the " ++
      branch ++
      " branch.",
    "",
    "Please search the repository to find where this specification may have been moved to.",
    "Look for:",
    "1. Similar directory names under specification/",
    "2. TypeSpec projects (with tspconfig.yaml) that match the service",
    "3. The service name appears to be related to: " ++ serviceNames directory,
    "",
    "Once you find the new location, get the latest commit SHA for that path.",
    "",
    "Return your answer as JSON: \x7b\"path\": \"new/path/here\", \"commit\": \"sha_here\"\x7d"
  ]

end BuildMend.Prompt
