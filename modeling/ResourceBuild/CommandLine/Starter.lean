import ResourceBuild.Text.Pieces

/-!
# The starter configuration

The configuration that a new one can start from.
-/

namespace ResourceBuild.CommandLine

def starterLines : List String :=
  ["# fxpack build configuration",
    "# Stages run in order: metadata, timestamp, manifest, bundle.",
    "",
    "[metadata]",
    "path = \"package.json\"",
    "# Environment variable holding a release version, e.g. \"v1.2.3\"",
    "version_env = \"RELEASE_VERSION\"",
    "version_prefix = \"v\"",
    "indent = 2",
    "",
    "[timestamp]",
    "output = \"dist/.buildstamp\"",
    "# iso | locale | custom",
    "style = \"iso\"",
    "# locale = \"en_US\"",
    "# time_zone = \"utc\"",
    "# pattern = \"%Y-%m-%d %H:%M\"",
    "",
    "[manifest]",
    "output = \"fxmanifest.lua\"",
    "",
    "[[manifest.sections]]",
    "id = \"header\"",
    "type = \"key_value\"",
    "data = [",
    "  \x7b key = \"fx_version\", value = \"cerulean\" \x7d,",
    "  \x7b key = \"game\", value = \"gta5\" \x7d,",
    "]",
    "",
    "[[manifest.sections]]",
    "id = \"package\"",
    "type = \"package_metadata\"",
    "data = [",
    "  \x7b manifest_key = \"name\", source_key = \"name\" \x7d,",
    "  \x7b manifest_key = \"version\", source_key = \"version\" \x7d,",
    "  \x7b manifest_key = \"description\", source_key = \"description\" \x7d,",
    "  \x7b manifest_key = \"author\", source_key = \"author\" \x7d,",
    "]",
    "",
    "[[manifest.sections]]",
    "id = \"server\"",
    "type = \"list\"",
    "singular_key = \"server_script\"",
    "plural_key = \"server_scripts\"",
    "data = [\"dist/server.js\"]",
    "",
    "[[manifest.sections]]",
    "id = \"convars\"",
    "type = \"convar_category\"",
    "enabled = false",
    "category = \x7b name = \"Resource\", description = \"Resource settings\" \x7d",
    "data = [",
    "  \x7b description = \"Enable debug output\", name = \"resource_debug\", " ++
      "type = \"CV_BOOL\", default = \"false\" \x7d,",
    "]",
    "",
    "[bundle]",
    "entry_points = [\"src/server.ts\"]",
    "output = \"dist/server.js\"",
    "program = \"esbuild\"",
    "",
    "[bundle.options]",
    "format = \"cjs\"",
    "platform = \"node\"",
    "target = \"node16\"",
    "keep_names = true",
    "legal_comments = \"inline\"",
    "",
    "# [release]",
    "# repository = \"owner/name\"",
    "# delay_secs = 5"]

def starter : String :=
  Text.join "\n" starterLines ++ "\n"

end ResourceBuild.CommandLine
